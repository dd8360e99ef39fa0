import DocStore.Dialect.Operator
import DocStore.Filter.Condition
import DocStore.Text.Case
import DocStore.Value.Integer

/-!
Filters, sort orders and pages as SQL. A filter is an object: a key is a field
with a condition, or the glue of a list of clauses. What asks for nothing is
left out, and a filter that asks for nothing at all has no SQL.
-/

namespace DocStore.Dialect

/-- One condition of a field: an operator's name and its argument. -/
def fieldCondition (d : Dialect) (field key : Text) (v : Value) :
    Except Fault (Option Condition) :=
  match Operator.parse? key with
  | none => .error (.filter (.unknownOperator key))
  | some op =>
    if !op.isSupported then .error (.filter (.hostOperator key field))
    else do return (← d.operator op field v).map .leaf

/-- The conjunction of the conditions of a field. -/
def fieldConditions (d : Dialect) (field : Text) (conditions : Members) :
    Except Fault (Option Condition) := do
  let parts ← conditions.mapM fun (key, v) => d.fieldCondition field key v
  return Condition.conjunction? (parts.filterMap id)

/-- The conditions that a negation is of: those of an object, or a match of anything else. -/
def negated : Value → Members
  | .object conditions => conditions
  | v => [(Operator.regex.name, v)]

/-- The conditions of a field: those of an object, a match of a pattern, or equality. -/
def field (d : Dialect) (name : Text) (v : Value) : Except Fault (Option Condition) :=
  match v with
  | .object [(key, inner)] =>
    if key = "$not" then do
      return (← d.fieldConditions name (negated inner)).map .negation
    else d.fieldConditions name [(key, inner)]
  | .object conditions => d.fieldConditions name conditions
  | .pattern _ => d.fieldConditions name [(Operator.regex.name, v)]
  | v => d.fieldConditions name [(Operator.eq.name, v)]

mutual

/-- The condition of a filter, or none when it asks for nothing. -/
def filter (d : Dialect) : Value → Except Fault (Option Condition)
  | .object ms => do return Condition.conjunction? (← d.filterMembers ms)
  | _ => .error ↑ArgumentFault.filter

/-- The conditions of the members of a filter. -/
def filterMembers (d : Dialect) : List (Text × Value) → Except Fault (List Condition)
  | [] => .ok []
  | (key, v) :: ms => do
    let first ← d.filterMember key v
    return first.toList ++ (← d.filterMembers ms)

/-- The condition of one member of a filter. -/
def filterMember (d : Dialect) (key : Text) : Value → Except Fault (Option Condition)
  | .list clauses =>
    match Glue.ofKey? key with
    | some glue => do return Condition.clauses? glue (← d.filterClauses clauses)
    | none => d.field key (.list clauses)
  | .tuple clauses =>
    match Glue.ofKey? key with
    | some glue => do return Condition.clauses? glue (← d.filterClauses clauses)
    | none => d.field key (.tuple clauses)
  | v =>
    match Glue.ofKey? key with
    | some _ => .error ↑(ArgumentFault.clauses key)
    | none => d.field key v

/-- The conditions of clauses. -/
def filterClauses (d : Dialect) : List Value → Except Fault (List Condition)
  | [] => .ok []
  | clause :: clauses => do
    let first ← d.filter clause
    return first.toList ++ (← d.filterClauses clauses)

end

/-- The condition that a filter asks for; whatever counts as false asks for nothing. -/
def condition (d : Dialect) (criteria : Value) : Except Fault (Option Condition) :=
  if criteria.isTruthy then d.filter criteria else .ok none

/-- A filter as an expression. -/
def expression (d : Dialect) (criteria : Value) : Except Fault (Option Sql) := do
  return (← d.condition criteria).map (·.sql)

/-- A filter as a clause. -/
def whereClause (d : Dialect) (criteria : Value) : Except Fault (Option Sql) := do
  return (← d.expression criteria).map ("WHERE " ++ ·)

/-- The directions that a sort order may name. -/
def directionWords : List (Text × String) :=
  [("1", "ASC"), ("asc", "ASC"), ("ascending", "ASC"),
    ("-1", "DESC"), ("desc", "DESC"), ("descending", "DESC")]

/-- The direction of a field in a sort order: a word in either case, or a number that is equal to
one or minus one. -/
def direction (name : Text) (v : Value) : Except Fault String :=
  let known : Option String :=
    match v with
    | .str t => directionWords.lookup t.strip.lower
    | v =>
      match v.number? with
      | some n => if n.equals (.int 1) then some "ASC" else if n.equals (.int (-1)) then some "DESC"
        else none
      | none => none
  match known with
  | some word => .ok word
  | none =>
    if v.isKey then .error ↑(ArgumentFault.direction name v.display)
    else .error ↑Misuse.wrongType

/-- One field of a sort order. -/
def sortItem (d : Dialect) (name : Text) (v : Value) : Except Fault Sql := do
  let selector ← d.selector name false
  return selector ++ (" " ++ (← direction name v))

/-- A sort order as a clause. -/
def orderClause (d : Dialect) (sort : Value) : Except Fault (Option Sql) :=
  if !sort.isTruthy then .ok none
  else
    match sort with
    | .object ms => do
      let items ← ms.mapM fun (name, v) => d.sortItem name v
      return some ("ORDER BY " ++ Sql.join ", " items)
    | _ => .error ↑Misuse.noMember

/-- An integer without quotes. -/
def integerPiece (n : Int) : Sql := [.number (Text.ofInt n)]

/-- A page as a clause. An offset goes only with a limit. -/
def limitClause (limit offset : Value) : Except Misuse (Option Sql) :=
  if !limit.isTruthy then .ok none
  else do
    let head : Sql := "LIMIT " ++ integerPiece (← limit.toInt)
    if !offset.isTruthy then return some head
    else return some (head ++ " OFFSET " ++ integerPiece (← offset.toInt))

end DocStore.Dialect
