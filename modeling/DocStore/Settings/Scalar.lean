import DocStore.Json.Decode
import DocStore.Json.Encode
import DocStore.Text.Blank
import DocStore.Text.Case
import DocStore.Text.Digit

/-!
Settings written as text. A text stands for the value that it plainly writes:
truth values, null, lists and objects, and numbers in the one form in which they
are written back. Every other text stands for itself, blanks included.
-/

namespace DocStore.Settings

/-- A text without the minus signs in front and without one point. -/
def bareDigits (t : Text) : Text :=
  let unsigned := t.dropWhile fun c : CodePoint => c = '-'
  unsigned.eraseP fun c : CodePoint => c = '.'

/-- The number that a text writes, when writing the number gives the text again. -/
def canonicalNumber (t raw : Text) : Except Json.ReadFault Value :=
  match Json.decode t with
  | .ok v => .ok (if Json.encode v = some t then v else .str raw)
  | .error .malformed => .ok (.str raw)
  | .error fault => .error fault

/-- Whether a text is a word in either case of letters. -/
def isWord (t : Text) (words : List Text) : Bool := t.lower ∈ words

/-- The value that a text stands for. -/
def scalar (raw : Text) : Except Json.ReadFault Value :=
  let t := raw.strip
  if isWord t ["true"] then .ok (.bool true)
  else if isWord t ["false"] then .ok (.bool false)
  else if isWord t ["null", "none"] then .ok .null
  else if t.startsWith "\x7b" || t.startsWith "[" then
    match Json.decode t with
    | .ok v => .ok v
    | .error .malformed => .ok (.str raw)
    | .error fault => .error fault
  else if Text.isDigits (bareDigits t) then canonicalNumber t raw
  else .ok (.str raw)

end DocStore.Settings
