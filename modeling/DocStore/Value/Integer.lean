import DocStore.Fault.Misuse
import DocStore.Text.Integer

/-!
The integer of a value: truth values and integers are their own, floats lose
their fraction, texts are read as numerals.
-/

namespace DocStore.Value

/-- The words for a text that is no numeral. -/
def notNumeral (shown : Text) : Misuse :=
  .badValue ("invalid literal for int() with base 10: " ++ shown)

/-- The blanks that may stand around a numeral of octets. -/
def isOctetBlank (c : CodePoint) : Bool := c = ' ' || (0x09 ≤ c.val && c.val ≤ 0x0d)

/-- The integer of a value. -/
def toInt : Value → Except Misuse Int
  | .bool b => .ok b.toNat
  | .int n => .ok n
  | .float .nan => .error (.badValue "")
  | .float (.infinite _) => .error .overflow
  | .float x => .ok (x.truncate?.getD 0)
  | .str t =>
    match t.toInt? with
    | some n => .ok n
    | none => .error (notNumeral t.quoted)
  | .bytes octets =>
    let t : Text := octets.map fun b => CodePoint.ofNat b.toNat
    match t.integerWithin? isOctetBlank with
    | some n => .ok n
    | none => .error (notNumeral (Text.quotedOctets octets))
  | _ => .error .wrongType

end DocStore.Value
