import DocStore.Filter.Compile
import DocStore.Proofs.Sql.Formula

/-!
What a filter asks. Given the truth of every single condition, the truth of a
filter is the conjunction of its members, clauses go together as their key says,
and a negation negates the conditions of its field. What asks for nothing has no
truth and is left out.
-/

namespace DocStore

/-- The truth of what there is together; where there is nothing, nothing is asked. -/
def Glue.truth? (g : Glue) : List Truth → Option Truth
  | [] => none
  | ts => some (g.truth ts)

namespace Filter

/-- The truth of the conditions that operators and their arguments put on a field. -/
def conditionsTruth (ask : Text → Value → Option Truth) (conditions : Members) : Option Truth :=
  Glue.and.truth? (conditions.filterMap fun m => ask m.1 m.2)

/-- The truth of what a field is asked: operators, their negation, a match of a pattern, or
equality. -/
def fieldTruth (ask : Text → Value → Option Truth) : Value → Option Truth
  | .object [(key, v)] =>
    if key = "$not" then
      match v with
      | .object conditions => (conditionsTruth ask conditions).map Truth.not
      | v => (ask "$regex" v).map Truth.not
    else ask key v
  | .object conditions => conditionsTruth ask conditions
  | .pattern t => ask "$regex" (.pattern t)
  | v => ask "$eq" v

mutual

/-- The truth of a filter, from the truth of every field, operator and argument. -/
def truth (ask : Text → Text → Value → Option Truth) : Value → Option Truth
  | .object ms => Glue.and.truth? (membersTruth ask ms)
  | _ => none

/-- The truths of the members of a filter. -/
def membersTruth (ask : Text → Text → Value → Option Truth) : List (Text × Value) → List Truth
  | [] => []
  | (key, v) :: ms => (memberTruth ask key v).toList ++ membersTruth ask ms

/-- The truth of one member of a filter. -/
def memberTruth (ask : Text → Text → Value → Option Truth) (key : Text) : Value → Option Truth
  | .list clauses =>
    match Glue.ofKey? key with
    | some glue => glue.truth? (clausesTruth ask clauses)
    | none => fieldTruth (ask key) (.list clauses)
  | .tuple clauses =>
    match Glue.ofKey? key with
    | some glue => glue.truth? (clausesTruth ask clauses)
    | none => fieldTruth (ask key) (.tuple clauses)
  | v => fieldTruth (ask key) v

/-- The truths of clauses. -/
def clausesTruth (ask : Text → Text → Value → Option Truth) : List Value → List Truth
  | [] => []
  | clause :: clauses => (truth ask clause).toList ++ clausesTruth ask clauses

end

end Filter

/-- The truth of a single condition in a dialect, from the truth of every text of SQL that an
operator makes. -/
def Dialect.ask (d : Dialect) (v : Text → Truth) (field key : Text) (argument : Value) :
    Option Truth :=
  match Operator.parse? key with
  | none => none
  | some op =>
    match d.operator op field argument with
    | .ok (some s) => some (v s.render)
    | _ => none

end DocStore
