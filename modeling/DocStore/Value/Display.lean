import DocStore.Value.Basic
import DocStore.Text.Quoted

/-!
The display of values in messages: texts in quotes, lists in brackets, tuples
in parentheses, members in braces.
-/

namespace DocStore.Value

mutual

/-- A value as messages show it. -/
def display : Value → Text
  | .null => "None"
  | .bool true => "True"
  | .bool false => "False"
  | .int n => Text.ofInt n
  | .float x => x.display
  | .str t => t.quoted
  | .list items => "[" ++ Text.join ", " (displayItems items) ++ "]"
  | .tuple [item] => "(" ++ item.display ++ ",)"
  | .tuple items => "(" ++ Text.join ", " (displayItems items) ++ ")"
  | .object members => "\x7b" ++ Text.join ", " (displayMembers members) ++ "\x7d"
  | .bytes octets => Text.quotedOctets octets
  | .pattern source => "re.compile(" ++ source.quoted.take 200 ++ ")"
  | .test _ => "<function>"

/-- The items of a list as messages show them. -/
def displayItems : List Value → List Text
  | [] => []
  | v :: vs => v.display :: displayItems vs

/-- The members of an object as messages show them. -/
def displayMembers : List (Text × Value) → List Text
  | [] => []
  | (key, v) :: ms => (key.quoted ++ ": " ++ v.display) :: displayMembers ms

end

/-- A value as text: a text is its own, every other value is displayed. -/
def toText : Value → Text
  | .str t => t
  | v => v.display

end DocStore.Value
