import DocStore.Text.Basic

/-!
Patterns of the `LIKE` operator. A text that is searched for stands between two
wildcards, and whatever would be a wildcard or an escape inside it is escaped.
-/

namespace DocStore.Like

/-- How one code point of a searched text stands in a pattern. -/
def escape (c : CodePoint) : Text :=
  if c = '\\' ∨ c = '%' ∨ c = '_' then ['\\', c] else [c]

/-- The pattern of the texts that include a text. -/
def containing (t : Text) : Text := "%" ++ t.flatMap escape ++ "%"

end DocStore.Like
