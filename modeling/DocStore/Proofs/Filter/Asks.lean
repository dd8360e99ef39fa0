import DocStore.Filter.Basic
import DocStore.Filter.Compile
import DocStore.Proofs.Outcome

/-!
Which filters ask for anything. Said of the filter alone, before any SQL: an
object of conditions asks for something when it has a condition besides options,
clauses do when one of them does, and so does every value that a field must be
equal to. A filter that is compiled has a condition exactly when it asks for
something, whatever its depth.
-/

namespace DocStore

namespace Filter

/-- Whether conditions on a field ask for anything; options only go with another condition. -/
def conditionsAsk (conditions : Members) : Bool :=
  conditions.any fun m => m.1 ≠ Operator.options.name

/-- Whether a field is asked for anything. -/
def fieldAsks : Value → Bool
  | .object [(key, v)] =>
    if key = "$not" then conditionsAsk (Dialect.negated v) else conditionsAsk [(key, v)]
  | .object conditions => conditionsAsk conditions
  | _ => true

mutual

/-- Whether an object of criteria asks for anything. -/
def objectAsks : Value → Bool
  | .object ms => membersAsk ms
  | _ => true

/-- Whether one of the members of a filter asks for anything. -/
def membersAsk : List (Text × Value) → Bool
  | [] => false
  | (key, v) :: ms => memberAsks key v || membersAsk ms

/-- Whether a member of a filter asks for anything. -/
def memberAsks (key : Text) : Value → Bool
  | .list clauses => (Glue.ofKey? key).isNone || clausesAsk clauses
  | .tuple clauses => (Glue.ofKey? key).isNone || clausesAsk clauses
  | v => fieldAsks v

/-- Whether one of some clauses asks for anything. -/
def clausesAsk : List Value → Bool
  | [] => false
  | clause :: clauses => objectAsks clause || clausesAsk clauses

end

/-- Whether a filter asks for anything: criteria do unless they count as false or leave everything
out, and a predicate always does. -/
def asks : Filter → Bool
  | .criteria v => v.isTruthy && objectAsks v
  | .predicate _ => true

end Filter

theorem Operator.parse?_options {key : Text} {op : Operator} (h : parse? key = some op) :
    op = .options ↔ key = Operator.options.name := by
  constructor
  · rintro rfl
    unfold parse? at h
    split at h
    next op hop =>
      cases h
      have haliases : ∀ p ∈ aliases, p.2 ≠ .options := by decide
      obtain ⟨l, l', hl, -⟩ := List.lookup_eq_some_iff.mp hop
      have hmem : (key, .options) ∈ aliases := by simp [hl]
      exact absurd rfl (haliases _ hmem)
    next =>
      have hname := List.find?_some h
      exact (of_decide_eq_true hname).symm
  · rintro rfl
    cases h
    rfl

namespace Dialect

variable {d : Dialect}

theorem isSome_of_map_some {e : Except Fault Sql} {s : Option Sql} (h : some <$> e = .ok s) :
    s.isSome = true := by
  cases e <;> cases h
  rfl

/-- Every operator puts a condition on its field, except that options put none. -/
theorem isSome_operator {op : Operator} {field : Text} {v : Value} {s : Option Sql}
    (h : d.operator op field v = .ok s) : s.isSome = decide (op ≠ .options) := by
  obtain ⟨selector, -, h⟩ := exists_of_bind_ok h
  cases op with
  | eq | ne =>
    dsimp only at h
    split at h
    · cases h
      rfl
    · obtain ⟨literal, -, ⟨⟩⟩ := exists_of_bind_ok h
      rfl
  | gt | gte | lt | lte | oneOf | noneOf => exact isSome_of_map_some h
  | has =>
    dsimp only at h
    split at h
    · cases h
    · exact isSome_of_map_some h
  | all | regex | mod | size =>
    dsimp only at h
    split at h <;> first | exact isSome_of_map_some h | (cases h; rfl) | cases h
  | present =>
    cases h
    rfl
  | text =>
    dsimp only at h
    split at h
    · obtain ⟨literal, -, ⟨⟩⟩ := exists_of_bind_ok h
      rfl
    · cases h
  | options =>
    cases h
    rfl
  | func | fuzzy => cases h

theorem isSome_conjunction? (parts : List Condition) :
    (Condition.conjunction? parts).isSome = !parts.isEmpty := by
  cases parts <;> rfl

theorem isSome_clauses? (g : Glue) (parts : List Condition) :
    (Condition.clauses? g parts).isSome = !parts.isEmpty := by
  cases parts <;> rfl

theorem isEmpty_toList_append (c : Option Condition) (cs : List Condition) :
    (!(c.toList ++ cs).isEmpty) = (c.isSome || !cs.isEmpty) := by
  cases c <;> rfl

theorem isSome_fieldCondition {field key : Text} {v : Value} {c : Option Condition}
    (h : d.fieldCondition field key v = .ok c) :
    c.isSome = decide (key ≠ Operator.options.name) := by
  unfold fieldCondition at h
  split at h
  · cases h
  next op hop =>
    split at h
    · cases h
    · obtain ⟨s, hs, ⟨⟩⟩ := exists_of_bind_ok h
      rw [Option.isSome_map, isSome_operator hs]
      exact decide_eq_decide.mpr (not_congr (Operator.parse?_options hop))

theorem isSome_fieldConditions {field : Text} {conditions : Members} {c : Option Condition}
    (h : d.fieldConditions field conditions = .ok c) :
    c.isSome = Filter.conditionsAsk conditions := by
  obtain ⟨parts, hparts, ⟨⟩⟩ := exists_of_bind_ok h
  rw [isSome_conjunction?]
  have hforall := forall₂_of_mapM_ok hparts
  clear hparts h
  induction hforall with
  | nil => rfl
  | @cons m part conditions parts hpart _ ih =>
    have hm : part.isSome = decide (m.1 ≠ Operator.options.name) := isSome_fieldCondition hpart
    rw [Filter.conditionsAsk, List.any_cons, ← hm]
    cases part with
    | none => exact ih
    | some part => rfl

theorem isSome_field {name : Text} {v : Value} {c : Option Condition} (h : d.field name v = .ok c) :
    c.isSome = Filter.fieldAsks v := by
  -- A negation is one only when it is the single condition of its field.
  cases v with
  | object conditions =>
    rcases conditions with _ | ⟨⟨key, inner⟩, _ | ⟨m, rest⟩⟩
    · exact isSome_fieldConditions h
    · by_cases hkey : key = "$not"
      · simp only [field, Filter.fieldAsks, if_pos hkey] at h ⊢
        obtain ⟨c, hc, ⟨⟩⟩ := exists_of_bind_ok h
        rw [Option.isSome_map]
        exact isSome_fieldConditions hc
      · simp only [field, Filter.fieldAsks, if_neg hkey] at h ⊢
        exact isSome_fieldConditions h
    · exact isSome_fieldConditions h
  | _ => exact isSome_fieldConditions h

mutual

/-- A filter that is compiled has a condition exactly when it asks for something. -/
theorem isSome_filter (v : Value) {c : Option Condition} (h : d.filter v = .ok c) :
    c.isSome = Filter.objectAsks v := by
  match v with
  | .object ms =>
    obtain ⟨cs, hcs, ⟨⟩⟩ := exists_of_bind_ok h
    rw [isSome_conjunction?, Filter.objectAsks]
    exact isSome_filterMembers ms hcs
  | .null | .bool _ | .int _ | .float _ | .str _ | .list _ | .tuple _ | .bytes _ | .pattern _
  | .test _ => cases h

theorem isSome_filterMembers (ms : List (Text × Value)) {cs : List Condition}
    (h : d.filterMembers ms = .ok cs) : (!cs.isEmpty) = Filter.membersAsk ms := by
  match ms with
  | [] =>
    cases h
    rfl
  | (key, v) :: ms =>
    obtain ⟨c, hc, h⟩ := exists_of_bind_ok h
    obtain ⟨cs, hcs, ⟨⟩⟩ := exists_of_bind_ok h
    rw [isEmpty_toList_append, isSome_filterMember key v hc, isSome_filterMembers ms hcs,
      Filter.membersAsk]

theorem isSome_filterMember (key : Text) (v : Value) {c : Option Condition}
    (h : d.filterMember key v = .ok c) : c.isSome = Filter.memberAsks key v := by
  have hfield (h : d.field key v = .ok c) := isSome_field h
  cases hg : Glue.ofKey? key with
  | some g =>
    match v with
    | .list vs =>
      simp only [filterMember, hg] at h
      obtain ⟨cs, hcs, ⟨⟩⟩ := exists_of_bind_ok h
      rw [isSome_clauses?, isSome_filterClauses vs hcs, Filter.memberAsks, hg]
      rfl
    | .tuple vs =>
      simp only [filterMember, hg] at h
      obtain ⟨cs, hcs, ⟨⟩⟩ := exists_of_bind_ok h
      rw [isSome_clauses?, isSome_filterClauses vs hcs, Filter.memberAsks, hg]
      rfl
    | .null | .bool _ | .int _ | .float _ | .str _ | .object _ | .bytes _ | .pattern _ | .test _ =>
      simp only [filterMember, hg] at h
      cases h
  -- Under any other key the member is a field, whatever its value.
  | none =>
    cases v <;> simp only [filterMember, hg] at h <;>
      simpa [Filter.memberAsks, hg, Filter.fieldAsks] using hfield h

theorem isSome_filterClauses (vs : List Value) {cs : List Condition}
    (h : d.filterClauses vs = .ok cs) : (!cs.isEmpty) = Filter.clausesAsk vs := by
  match vs with
  | [] =>
    cases h
    rfl
  | v :: vs =>
    obtain ⟨c, hc, h⟩ := exists_of_bind_ok h
    obtain ⟨cs, hcs, ⟨⟩⟩ := exists_of_bind_ok h
    rw [isEmpty_toList_append, isSome_filter v hc, isSome_filterClauses vs hcs, Filter.clausesAsk]

end

/-- Criteria have a clause exactly when they ask for something. -/
theorem isSome_whereClause {v : Value} {clause : Option Sql} (h : d.whereClause v = .ok clause) :
    clause.isSome = Filter.asks (.criteria v) := by
  obtain ⟨sql, hsql, ⟨⟩⟩ := exists_of_bind_ok h
  obtain ⟨c, hc, ⟨⟩⟩ := exists_of_bind_ok hsql
  rw [Option.isSome_map, Option.isSome_map, Filter.asks]
  unfold condition at hc
  split at hc
  next htruthy => rw [isSome_filter v hc, htruthy, Bool.true_and]
  next hfalsy =>
    cases hc
    simp [hfalsy]

end Dialect

end DocStore
