import DocStore.Text.Blank
import DocStore.Text.Digit

/-!
Integers written as text, in the decimal digits of any scripts. Digits may be
grouped by single underscores, a sign may stand in front and blanks around.
-/

namespace DocStore.Text

/-- The groups of digits between single underscores, when no group is empty. -/
def digitGroups? (t : Text) : Option (List Text) :=
  let groups := t.split '_'
  if groups.any (·.isEmpty) then none else some groups

/-- The sign at the beginning of a text, and the text after it. -/
def unsigned : Text → Bool × Text
  | [] => (false, [])
  | c :: t => if c = '-' then (true, t) else if c = '+' then (false, t) else (false, c :: t)

/-- An integer of a sign and a magnitude. -/
def signed (negative : Bool) (n : Nat) : Int := if negative then -n else n

/-- The integer that a text writes, with code points around it that count as blank. -/
def integerWithin? (blank : CodePoint → Bool) (t : Text) : Option Int := do
  let (negative, digits) := (trim blank t).unsigned
  let groups ← digitGroups? digits
  return signed negative (← decimalValue? groups.flatten)

/-- The integer that a text writes, perhaps with blanks around it. -/
def toInt? (t : Text) : Option Int := integerWithin? CodePoint.isBlank t

end DocStore.Text
