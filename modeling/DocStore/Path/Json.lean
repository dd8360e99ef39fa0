import DocStore.Path.Basic
import DocStore.Text.Digit

/-!
JSON paths, by which two of the engines name a field: a dollar sign, then a leg
for each key. A key of digits is an index, a plain key stands after a point,
and every other key stands in double quotes.
-/

namespace DocStore.Path

/-- One step of a JSON path. -/
inductive Leg where
  | index (digits : Text)
  | plain (key : Text)
  | quoted (key : Text)
  deriving DecidableEq

/-- A code point that a plain key starts with. -/
def isKeyStart (c : CodePoint) : Bool := Text.isAsciiLetter c || c = '_'

/-- A code point that a plain key goes on with. -/
def isKeyPart (c : CodePoint) : Bool := isKeyStart c || Text.isAsciiDigit c

/-- A text without one newline at its end. -/
def dropNewline (t : Text) : Text :=
  match t.reverse with
  | c :: rest => if c = '\n' then rest.reverse else t
  | [] => []

/-- A key that needs no quotes: letters, digits and underscores, no digit first; one newline at
the end does not count. -/
def isPlainKey (t : Text) : Bool :=
  match dropNewline t with
  | [] => false
  | c :: rest => isKeyStart c && rest.all isKeyPart

/-- The step that leads to a key. -/
def Leg.ofSegment (t : Text) : Leg :=
  if t.isDigits then .index t else if isPlainKey t then .plain t else .quoted t

/-- The text of a step. -/
def Leg.text : Leg → Text
  | .index digits => "[" ++ digits ++ "]"
  | .plain key => "." ++ key
  | .quoted key => ".\"" ++ escapeQuotes key ++ "\""

/-- The JSON path of a field. -/
def json (field : Text) : Except ArgumentFault Text := do
  let keys ← segments field
  return "$" ++ keys.flatMap fun key => (Leg.ofSegment key).text

end DocStore.Path
