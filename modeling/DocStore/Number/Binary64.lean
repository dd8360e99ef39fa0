/-!
Double-precision numbers as exact values. A finite number is a mantissa below
`2 ^ 53` times a power of two, counted in units of `2 ^ -1074`, the least
positive one; every comparison and every rounding is then a statement about
natural numbers.
-/

namespace DocStore

-- Powers are those of the core library, whatever else is imported.
attribute [local instance (high + 1)] instPowNat

/-- The mantissa and exponent that stand for a number once: the mantissa has 53 binary digits
unless the exponent is the least. -/
def Canonical (m e : Nat) : Prop := m < 2 ^ (53 : Nat) ∧ e ≤ 2045 ∧ (e = 0 ∨ 2 ^ (52 : Nat) ≤ m)

instance (m e : Nat) : Decidable (Canonical m e) := by
  unfold Canonical
  infer_instance

/-- A double-precision number: `± m * 2 ^ e` units of `2 ^ -1074`, infinite, or not a number. -/
inductive Binary64 where
  | finite (negative : Bool) (m e : Nat) (canonical : Canonical m e)
  | infinite (negative : Bool)
  | nan
  deriving DecidableEq

namespace Binary64

instance : Inhabited Binary64 := ⟨.nan⟩

/-- The number of the given mantissa and exponent, infinite when there is none. -/
def ofParts (negative : Bool) (m e : Nat) : Binary64 :=
  if h : Canonical m e then .finite negative m e h else .infinite negative

/-- The quotient rounded to the nearest integer, a half going to the even neighbour. -/
def roundDiv (n d : Nat) : Nat :=
  let q := n / d
  let r := n % d
  if 2 * r < d then q else if d < 2 * r then q + 1 else q + q % 2

/-- The number nearest to `n / d` units, an exact half going to the even mantissa. -/
def ofUnits (negative : Bool) (n d : Nat) : Binary64 :=
  let e := Nat.log2 (n / d) - 52
  let m := roundDiv n (d * 2 ^ e)
  if m = 2 ^ (53 : Nat) then ofParts negative (2 ^ (52 : Nat)) (e + 1) else ofParts negative m e

/-- The number nearest to `digits * 10 ^ exponent`. Beyond three hundred and some places the
outcome is settled without computing the power. -/
def ofDecimal (negative : Bool) (digits : Nat) (exponent : Int) : Binary64 :=
  let width : Int := (Nat.toDigits 10 digits).length
  if digits = 0 ∨ width + exponent < -400 then ofParts negative 0 0
  else if 400 < width + exponent then .infinite negative
  else if 0 ≤ exponent then ofUnits negative (digits * 10 ^ exponent.toNat * 2 ^ (1074 : Nat)) 1
  else ofUnits negative (digits * 2 ^ (1074 : Nat)) (10 ^ (-exponent).toNat)

/-- The number nearest to an integer, when one is near enough. -/
def ofInt? (n : Int) : Option Binary64 :=
  match ofUnits (n < 0) (n.natAbs * 2 ^ (1074 : Nat)) 1 with
  | .infinite _ => none
  | x => some x

/-- Zero, of the given sign. -/
def zero (negative : Bool) : Binary64 := ofParts negative 0 0

/-- A finite number in units of `2 ^ -1074`. -/
def units? : Binary64 → Option Int
  | .finite negative m e _ => some (if negative then -(m * 2 ^ e : Nat) else (m * 2 ^ e : Nat))
  | _ => none

/-- Whether the number is a zero of either sign. -/
def isZero : Binary64 → Bool
  | .finite _ m _ _ => m = 0
  | _ => false

/-- Whether the sign is negative. -/
def isNegative : Binary64 → Bool
  | .finite negative _ _ _ => negative
  | .infinite negative => negative
  | .nan => false

/-- Whether the number is finite. -/
def isFinite : Binary64 → Bool
  | .finite .. => true
  | _ => false

/-- The integer towards zero, of a finite number. -/
def truncate? (x : Binary64) : Option Int :=
  x.units?.map fun n => n.tdiv (2 ^ (1074 : Nat))

/-- The integer that a number is equal to. -/
def toInt? (x : Binary64) : Option Int :=
  x.units?.bind fun n => if n % 2 ^ (1074 : Nat) = 0 then some (n / 2 ^ (1074 : Nat)) else none

/-- Equality of values: the zeros are equal, and no number that is not one is equal to any. -/
def equals : Binary64 → Binary64 → Bool
  | .nan, _ => false
  | .infinite a, .infinite b => a = b
  | x, y =>
    match x.units?, y.units? with
    | some a, some b => a = b
    | _, _ => false

/-- The order of values. -/
def isLess : Binary64 → Binary64 → Bool
  | .nan, _ => false
  | _, .nan => false
  | .infinite a, .infinite b => a && !b
  | .infinite a, _ => a
  | _, .infinite b => !b
  | x, y =>
    match x.units?, y.units? with
    | some a, some b => a < b
    | _, _ => false

/-- The sum of a remainder and its divisor, rounded to the nearest number. -/
def addUnits (a b : Int) : Binary64 :=
  ofUnits (a + b < 0) (a + b).natAbs 1

/-- The remainder that has the divisor's sign; the divisor is not zero. -/
def floorMod (x y : Binary64) : Binary64 :=
  match x.units?, y with
  | none, _ => .nan
  | _, .nan => .nan
  | some a, .infinite negative =>
    if a = 0 then zero negative
    else if (a < 0) = negative then x
    else .infinite negative
  | some a, .finite negative m e h =>
    match (Binary64.finite negative m e h).units? with
    | none => .nan
    | some b =>
      let r := a.tmod b
      if r = 0 then zero negative
      else if (r < 0) = (b < 0) then addUnits r 0
      else addUnits r b

end Binary64

end DocStore
