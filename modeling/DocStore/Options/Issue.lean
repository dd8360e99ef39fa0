import DocStore.Value.Basic

/-!
Issues: what is wrong with the members of an options object. All members are
checked, so that every issue is told at once, in the order of the fields.
-/

namespace DocStore

/-- The kinds of issues. -/
inductive IssueKind where
  | missing
  | notText
  | notUnicode
  | notObject
  | notListed
  | notInteger
  | integerText
  | integerFraction
  | integerSize
  | finiteNumber
  | belowLeast
  | truthText
  | notTruth
  | timestampText
  deriving DecidableEq

/-- The name of a kind. -/
def IssueKind.name : IssueKind → Text
  | .missing => "missing"
  | .notText => "string_type"
  | .notUnicode => "string_unicode"
  | .notObject => "dict_type"
  | .notListed => "enum"
  | .notInteger => "int_type"
  | .integerText => "int_parsing"
  | .integerFraction => "int_from_float"
  | .integerSize => "int_parsing_size"
  | .finiteNumber => "finite_number"
  | .belowLeast => "greater_than_equal"
  | .truthText => "bool_parsing"
  | .notTruth => "bool_type"
  | .timestampText => "datetime_from_date_parsing"

/-- An issue, with the path to the member that has it. -/
structure Issue where
  location : List Text
  kind : IssueKind

/-- A value that was checked, or all issues that were found. -/
abbrev Checked (α : Type) := Except (List Issue) α

namespace Checked

/-- Two checks whose issues are told together. -/
def both {α β : Type} (a : Checked α) (b : Checked β) : Checked (α × β) :=
  match a, b with
  | .ok x, .ok y => .ok (x, y)
  | .ok _, .error issues => .error issues
  | .error issues, .ok _ => .error issues
  | .error issues, .error more => .error (issues ++ more)

/-- Checks of a list of things whose issues are told together. -/
def all {α β : Type} (check : α → Checked β) : List α → Checked (List β)
  | [] => .ok []
  | a :: as => (both (check a) (all check as)).map fun (x, xs) => x :: xs

/-- A check that failed with one issue. -/
def fail {α : Type} (location : List Text) (kind : IssueKind) : Checked α :=
  .error [⟨location, kind⟩]

end Checked

end DocStore
