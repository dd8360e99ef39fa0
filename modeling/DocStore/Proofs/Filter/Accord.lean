import DocStore.Proofs.Dialect.Accord
import DocStore.Proofs.Filter.Asks
import DocStore.Sql.Quoting

/-!
Filters in several dialects. A filter has SQL in all dialects or in none, and a
dialect that refuses it gives the reason that the others give. There is one
exception: `$all` of scalars that are not all texts, where one of the texts has
no UTF-8 form, is accepted by the dialect that writes such a list as JSON.
-/

namespace DocStore

namespace Filter

/-- Whether a condition is `$all` of scalars that are not all texts, with a text among them that
has no UTF-8 form. -/
def conditionMixes (key : Text) (v : Value) : Bool :=
  Operator.parse? key = some .all && v.items?.elim false Dialect.mixesUnencodable

/-- Whether one of some conditions on a field is such a list. -/
def conditionsMix (conditions : Members) : Bool :=
  conditions.any fun m => conditionMixes m.1 m.2

/-- Whether a field is asked for such a list. -/
def fieldMixes : Value → Bool
  | .object [(key, v)] =>
    if key = "$not" then conditionsMix (Dialect.negated v) else conditionsMix [(key, v)]
  | .object conditions => conditionsMix conditions
  | _ => false

mutual

/-- Whether criteria ask for such a list anywhere. -/
def mixes : Value → Bool
  | .object ms => membersMix ms
  | _ => false

/-- Whether one of the members of a filter asks for such a list. -/
def membersMix : List (Text × Value) → Bool
  | [] => false
  | (key, v) :: ms => memberMixes key v || membersMix ms

/-- Whether a member of a filter asks for such a list. -/
def memberMixes (key : Text) : Value → Bool
  | .list clauses => (Glue.ofKey? key).isSome && clausesMix clauses
  | .tuple clauses => (Glue.ofKey? key).isSome && clausesMix clauses
  | v => fieldMixes v

/-- Whether one of some clauses asks for such a list. -/
def clausesMix : List Value → Bool
  | [] => false
  | clause :: clauses => mixes clause || clausesMix clauses

end

end Filter

namespace Dialect

section

variable {d d' : Dialect} (hd : d.QuotesEvery) (hd' : d'.QuotesEvery)

include hd hd'

theorem fieldCondition_accord (field key : Text) (v : Value)
    (hmix : d.engine = .pgsql ∨ d'.engine = .pgsql → Filter.conditionMixes key v = false) :
    Accord (d.fieldCondition field key v) (d'.fieldCondition field key v) := by
  unfold fieldCondition
  split
  · exact .refused _
  next op hop =>
    split
    · exact .refused _
    next hsupported =>
      refine (operator_accord hd hd' (by simpa using hsupported) field v ?_).bind
        fun _ _ _ _ => .ok _ _
      rintro rfl hpgsql vs hvs
      simpa [Filter.conditionMixes, hop, hvs] using hmix hpgsql

theorem fieldConditions_accord (field : Text) (conditions : Members)
    (hmix : d.engine = .pgsql ∨ d'.engine = .pgsql → Filter.conditionsMix conditions = false) :
    Accord (d.fieldConditions field conditions) (d'.fieldConditions field conditions) := by
  have hparts : Accord (conditions.mapM fun m => d.fieldCondition field m.1 m.2)
      (conditions.mapM fun m => d'.fieldCondition field m.1 m.2) :=
    .mapM fun m hm => fieldCondition_accord hd hd' field m.1 m.2 fun hpgsql => by
      simpa using List.any_eq_false.mp (hmix hpgsql) m hm
  exact hparts.bind fun _ _ _ _ => .ok _ _

theorem field_accord (name : Text) (v : Value)
    (hmix : d.engine = .pgsql ∨ d'.engine = .pgsql → Filter.fieldMixes v = false) :
    Accord (d.field name v) (d'.field name v) := by
  -- The conditions that are no object's have one operator, which is not that of lists.
  have heq (w : Value) : Filter.conditionsMix [(Operator.eq.name, w)] = false := rfl
  have hregex (w : Value) : Filter.conditionsMix [(Operator.regex.name, w)] = false := rfl
  cases v with
  | object conditions =>
    rcases conditions with _ | ⟨⟨key, inner⟩, _ | ⟨m, rest⟩⟩
    · exact fieldConditions_accord hd hd' name [] hmix
    · by_cases hkey : key = "$not"
      · simp only [field, Filter.fieldMixes, if_pos hkey] at hmix ⊢
        exact (fieldConditions_accord hd hd' name _ hmix).bind fun _ _ _ _ => .ok _ _
      · simp only [field, Filter.fieldMixes, if_neg hkey] at hmix ⊢
        exact fieldConditions_accord hd hd' name _ hmix
    · exact fieldConditions_accord hd hd' name _ hmix
  | pattern source => exact fieldConditions_accord hd hd' name _ fun _ => hregex _
  | _ => exact fieldConditions_accord hd hd' name _ fun _ => heq _

end

mutual

/-- Two dialects refuse a filter alike, if it asks for no list that one of them takes as JSON. -/
theorem filter_accord {d d' : Dialect} (hd : d.QuotesEvery) (hd' : d'.QuotesEvery) (v : Value)
    (hmix : d.engine = .pgsql ∨ d'.engine = .pgsql → Filter.mixes v = false) :
    Accord (d.filter v) (d'.filter v) := by
  match v with
  | .object ms => exact (filterMembers_accord hd hd' ms hmix).bind fun _ _ _ _ => .ok _ _
  | .null | .bool _ | .int _ | .float _ | .str _ | .list _ | .tuple _ | .bytes _ | .pattern _
  | .test _ => exact .refused _

theorem filterMembers_accord {d d' : Dialect} (hd : d.QuotesEvery) (hd' : d'.QuotesEvery)
    (ms : List (Text × Value))
    (hmix : d.engine = .pgsql ∨ d'.engine = .pgsql → Filter.membersMix ms = false) :
    Accord (d.filterMembers ms) (d'.filterMembers ms) := by
  match ms with
  | [] => exact .ok _ _
  | (key, v) :: ms =>
    have hboth (h : d.engine = .pgsql ∨ d'.engine = .pgsql) :=
      Bool.or_eq_false_iff.mp (hmix h)
    exact (filterMember_accord hd hd' key v fun h => (hboth h).1).bind fun _ _ _ _ =>
      (filterMembers_accord hd hd' ms fun h => (hboth h).2).bind fun _ _ _ _ => .ok _ _

theorem filterMember_accord {d d' : Dialect} (hd : d.QuotesEvery) (hd' : d'.QuotesEvery)
    (key : Text) (v : Value)
    (hmix : d.engine = .pgsql ∨ d'.engine = .pgsql → Filter.memberMixes key v = false) :
    Accord (d.filterMember key v) (d'.filterMember key v) := by
  cases hg : Glue.ofKey? key with
  | some g =>
    match v with
    | .list vs =>
      simp only [filterMember, Filter.memberMixes, hg, Option.isSome_some, Bool.true_and] at hmix ⊢
      exact (filterClauses_accord hd hd' vs hmix).bind fun _ _ _ _ => .ok _ _
    | .tuple vs =>
      simp only [filterMember, Filter.memberMixes, hg, Option.isSome_some, Bool.true_and] at hmix ⊢
      exact (filterClauses_accord hd hd' vs hmix).bind fun _ _ _ _ => .ok _ _
    | .null | .bool _ | .int _ | .float _ | .str _ | .object _ | .bytes _ | .pattern _ | .test _ =>
      simp only [filterMember, hg]
      exact .refused _
  -- Under any other key the member is a field, whatever its value.
  | none =>
    have hfield : d.engine = .pgsql ∨ d'.engine = .pgsql → Filter.fieldMixes v = false := by
      cases v with
      | list vs | tuple vs => exact fun _ => rfl
      | _ => exact hmix
    have h := field_accord hd hd' key v hfield
    cases v <;> simpa only [filterMember, hg] using h

theorem filterClauses_accord {d d' : Dialect} (hd : d.QuotesEvery) (hd' : d'.QuotesEvery)
    (vs : List Value)
    (hmix : d.engine = .pgsql ∨ d'.engine = .pgsql → Filter.clausesMix vs = false) :
    Accord (d.filterClauses vs) (d'.filterClauses vs) := by
  match vs with
  | [] => exact .ok _ _
  | v :: vs =>
    have hboth (h : d.engine = .pgsql ∨ d'.engine = .pgsql) :=
      Bool.or_eq_false_iff.mp (hmix h)
    exact (filter_accord hd hd' v fun h => (hboth h).1).bind fun _ _ _ _ =>
      (filterClauses_accord hd hd' vs fun h => (hboth h).2).bind fun _ _ _ _ => .ok _ _

end

end Dialect

end DocStore
