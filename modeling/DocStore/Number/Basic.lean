import DocStore.Number.Shortest

/-!
Numbers: integers of any size and double-precision numbers. They compare by
their exact values, so that an integer and a float are equal only when they
are the same number.
-/

namespace DocStore

-- Powers are those of the core library, whatever else is imported.
attribute [local instance (high + 1)] instPowNat

/-- An integer or a double-precision number. -/
inductive Number where
  | int (n : Int)
  | float (x : Binary64)
  deriving DecidableEq

namespace Number

/-- Whether the number is equal to zero. -/
def isZero : Number → Bool
  | .int n => n = 0
  | .float x => x.isZero

/-- Equality of values. -/
def equals : Number → Number → Bool
  | .int a, .int b => a = b
  | .int a, .float x => x.toInt? = some a
  | .float x, .int a => x.toInt? = some a
  | .float x, .float y => x.equals y

/-- Whether an integer is below a double-precision number. -/
def intBelow (a : Int) (x : Binary64) : Bool :=
  match x, x.units? with
  | .infinite negative, _ => !negative
  | _, some n => a * 2 ^ (1074 : Nat) < n
  | _, none => false

/-- Whether a double-precision number is below an integer. -/
def belowInt (x : Binary64) (a : Int) : Bool :=
  match x, x.units? with
  | .infinite negative, _ => negative
  | _, some n => n < a * 2 ^ (1074 : Nat)
  | _, none => false

/-- The order of values. -/
def isLess : Number → Number → Bool
  | .int a, .int b => a < b
  | .int a, .float x => intBelow a x
  | .float x, .int a => belowInt x a
  | .float x, .float y => x.isLess y

/-- A number in double precision, rounded to the nearest; none when it is too great. -/
def toBinary64? : Number → Option Binary64
  | .float x => some x
  | .int n => Binary64.ofInt? n

/-- The text of a number in messages and in SQL. -/
def display : Number → Text
  | .int n => Text.ofInt n
  | .float x => x.display

end Number

end DocStore
