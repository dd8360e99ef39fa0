import DocStore.Json.Decode
import DocStore.Text.Blank

/-!
Integers that options give as text. White space may stand around the numeral and
a plus sign before it; zeros may stand at its beginning, single underscores
between its digits and a fraction of zeros at its end. What is left without them
must be an integer as JSON writes it.
-/

namespace DocStore.Numeral

/-- A text without the plus sign at its beginning, after which no minus sign may come. -/
def withoutPlus? : Text → Option Text
  | [] => some []
  | c :: t =>
    if c = '+' then if Text.startsWith t "-" then none else some t else some (c :: t)

/-- The digits from the first that is not zero on, or from the last zero when nothing else
comes before the point or the end; underscores may stand among the zeros. -/
def fromLastZero (last : CodePoint) : Text → Option Text
  | [] => some [last]
  | c :: t =>
    if c = '0' ∨ c = '_' then fromLastZero c t
    else if c = '.' then some (last :: c :: t)
    else if Text.isAsciiDigit c then some (c :: t)
    else none

/-- A numeral without the zeros at its beginning; a minus sign keeps the zeros after it. -/
def withoutZeros? : Text → Option Text
  | [] => none
  | c :: t =>
    if c = '0' then fromLastZero c t
    else if Text.isAsciiDigit c ∨ c = '-' then some (c :: t)
    else none

/-- A text without a fraction of zeros. -/
def withoutFraction (t : Text) : Text :=
  match t.span (fun c : CodePoint => c ≠ '.') with
  | (whole, []) => whole
  | (whole, _ :: zeros) => if zeros.all (· = '0') then whole else t

/-- A text without its underscores, when each stands alone and inside. -/
def withoutUnderscores (t : Text) : Text :=
  let groups := t.split '_'
  if groups.any (·.isEmpty) then t else groups.flatten

/-- The plain form of a numeral. -/
def plain? (t : Text) : Option Text := do
  let digits ← withoutZeros? (← withoutPlus? (Text.trim CodePoint.isWhiteSpace t))
  return withoutUnderscores (withoutFraction digits)

/-- The integer that a text writes. -/
def integer (t : Text) : Except Json.ReadFault Int :=
  match plain? t with
  | none => .error .malformed
  | some digits =>
    match Json.decode digits with
    | .ok (.int n) => .ok n
    | .ok _ => .error .malformed
    | .error fault => .error fault

end DocStore.Numeral
