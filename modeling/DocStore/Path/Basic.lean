import DocStore.Filter.Fault

/-!
Field paths. A field is named by the keys that lead to it, with points between
them; no key is empty.
-/

namespace DocStore.Path

/-- The keys that a field path consists of. -/
def segments (field : Text) : Except ArgumentFault (List Text) :=
  if field.isEmpty then .error .fieldName
  else if (field.split '.').any (·.isEmpty) then .error (.emptySegment field)
  else .ok (field.split '.')

/-- The field path that a value is. -/
def ofValue : Value → Except ArgumentFault Text
  | .str t => .ok t
  | _ => .error .fieldName

/-- A text with a backslash before each backslash and double quote. -/
def escapeQuotes (t : Text) : Text :=
  t.flatMap fun c : CodePoint => if c = '\\' ∨ c = '"' then ['\\', c] else [c]

end DocStore.Path
