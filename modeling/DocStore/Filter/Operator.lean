import DocStore.Text.Basic

/-!
Filter operators: what a condition on a field may ask. Some operators have
further names; two ask for a function of the host and have no SQL.
-/

namespace DocStore

/-- An operator of a condition. -/
inductive Operator where
  | eq | ne | gt | gte | lt | lte
  | oneOf | noneOf | has | all
  | regex | size | mod | present | text
  | func | fuzzy | options
  deriving DecidableEq

namespace Operator

/-- The name of an operator. -/
def name : Operator → Text
  | .eq => "$eq"
  | .ne => "$ne"
  | .gt => "$gt"
  | .gte => "$gte"
  | .lt => "$lt"
  | .lte => "$lte"
  | .oneOf => "$in"
  | .noneOf => "$nin"
  | .has => "$has"
  | .all => "$all"
  | .regex => "$regex"
  | .size => "$size"
  | .mod => "$mod"
  | .present => "$exists"
  | .text => "$text"
  | .func => "$func"
  | .fuzzy => "$fuzzy"
  | .options => "$options"

/-- All operators. -/
def list : List Operator :=
  [.eq, .ne, .gt, .gte, .lt, .lte, .oneOf, .noneOf, .has, .all, .regex, .size, .mod, .present,
    .text, .func, .fuzzy, .options]

theorem mem_list (op : Operator) : op ∈ list := by cases op <;> decide

/-- The further names. -/
def aliases : List (Text × Operator) :=
  [("$match", .regex), ("$preg", .regex), ("$fn", .func), ("$f", .func)]

/-- The operator of a name or further name. -/
def parse? (key : Text) : Option Operator :=
  match aliases.lookup key with
  | some op => some op
  | none => list.find? fun op => op.name = key

/-- Whether an operator has an SQL form. -/
def isSupported : Operator → Bool
  | .func | .fuzzy => false
  | _ => true

end Operator

end DocStore
