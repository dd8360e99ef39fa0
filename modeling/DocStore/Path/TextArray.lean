import DocStore.Path.Basic

/-!
Text arrays, by which one engine names a field: the keys in double quotes, with
commas between them and braces around them.
-/

namespace DocStore.Path

/-- One element of a text array. -/
def element (key : Text) : Text := "\"" ++ escapeQuotes key ++ "\""

/-- The text array of a field. -/
def textArray (field : Text) : Except ArgumentFault Text := do
  let keys ← segments field
  return "\x7b" ++ Text.join "," (keys.map element) ++ "\x7d"

end DocStore.Path
