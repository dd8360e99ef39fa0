import DocStore.Proofs.Filter.Condition
import DocStore.Proofs.Filter.Meaning
import DocStore.Proofs.Outcome

/-!
From filters to conditions. The condition that a filter is compiled to has the
truth that the filter asks for, whatever is true of its leaves; its leaves are
made by operators, and there is none exactly when the filter asks for nothing.
-/

namespace DocStore

/-- SQL that an operator makes in a dialect. -/
def Dialect.Makes (d : Dialect) (s : Sql) : Prop :=
  ∃ op field argument, d.operator op field argument = .ok (some s)

namespace Condition

/-- An optional condition answers a question: its leaves are made by operators of the dialect, and
its truth is the one that is asked for. -/
structure Answers (d : Dialect) (c : Option Condition)
    (asked : (Text → Truth) → Option Truth) : Prop where
  made : ∀ part ∈ c, part.IsMadeOf d.Makes
  truth : ∀ v, asked v = c.map (truth v)

/-- Conditions that answer a list of questions. -/
structure AnswersAll (d : Dialect) (cs : List Condition)
    (asked : (Text → Truth) → List Truth) : Prop where
  made : ∀ part ∈ cs, part.IsMadeOf d.Makes
  truth : ∀ v, asked v = cs.map (Condition.truth v)

variable {d : Dialect}

namespace AnswersAll

theorem cons {c : Option Condition} {cs : List Condition}
    {asked : (Text → Truth) → Option Truth} {others : (Text → Truth) → List Truth}
    (hc : Answers d c asked) (hcs : AnswersAll d cs others) :
    AnswersAll d (c.toList ++ cs) fun v => (asked v).toList ++ others v := by
  refine ⟨isMadeOf_toList_append hc.made hcs.made, fun v => ?_⟩
  rw [hc.truth, hcs.truth, List.map_append]
  cases c <;> rfl

theorem conjunction {cs : List Condition} {asked : (Text → Truth) → List Truth}
    (h : AnswersAll d cs asked) :
    Answers d (conjunction? cs) fun v => Glue.and.truth? (asked v) := by
  refine ⟨isMadeOf_conjunction? h.made, fun v => ?_⟩
  rw [h.truth]
  cases cs with
  | nil => rfl
  | cons c cs => simp [Glue.truth?, conjunction?, Condition.truth, truths_eq]

theorem clauses (g : Glue) {cs : List Condition} {asked : (Text → Truth) → List Truth}
    (h : AnswersAll d cs asked) : Answers d (clauses? g cs) fun v => g.truth? (asked v) := by
  refine ⟨isMadeOf_clauses? g h.made, fun v => ?_⟩
  rw [h.truth]
  cases cs with
  | nil => rfl
  | cons c cs => simp [Glue.truth?, clauses?, Condition.truth, truths_eq]

end AnswersAll

theorem Answers.negation {c : Option Condition} {asked : (Text → Truth) → Option Truth}
    (h : Answers d c asked) :
    Answers d (c.map .negation) fun v => (asked v).map Truth.not := by
  cases c with
  | none => exact ⟨by simp, fun v => by rw [h.truth]; rfl⟩
  | some c =>
    refine ⟨?_, fun v => ?_⟩
    · rintro part ⟨⟩
      exact .negation (h.made c rfl)
    · rw [h.truth]
      simp [Condition.truth]

end Condition

namespace Dialect

open Condition

variable {d : Dialect}

theorem fieldCondition_answers {field key : Text} {v : Value} {c : Option Condition}
    (h : d.fieldCondition field key v = .ok c) :
    Answers d c fun a => d.ask a field key v := by
  cases hop : Operator.parse? key with
  | none =>
    rw [fieldCondition, hop] at h
    cases h
  | some op =>
    rw [fieldCondition, hop] at h
    dsimp only at h
    split at h
    · cases h
    · obtain ⟨s, hs, h⟩ := exists_of_bind_ok h
      cases h
      have hask (a : Text → Truth) : d.ask a field key v = s.map fun s => a s.render := by
        rw [Dialect.ask, hop]
        dsimp only
        rw [hs]
        cases s <;> rfl
      cases s with
      | none => exact ⟨by simp, hask⟩
      | some s =>
        refine ⟨?_, hask⟩
        rintro part ⟨⟩
        exact .leaf ⟨op, field, v, hs⟩

theorem filterMap_cons_toList {α β : Type} (f : α → Option β) (a : α) (as : List α) :
    (a :: as).filterMap f = (f a).toList ++ as.filterMap f := by
  rw [List.filterMap_cons]
  cases f a <;> rfl

/-- The conditions of a field answer what its operators ask. -/
theorem mapM_answers {field : Text} {conditions : Members} {parts : List (Option Condition)}
    (h : (conditions.mapM fun (key, v) => d.fieldCondition field key v) = .ok parts) :
    AnswersAll d (parts.filterMap id) fun a =>
      conditions.filterMap fun m => d.ask a field m.1 m.2 := by
  induction conditions generalizing parts with
  | nil =>
    cases h
    exact ⟨by simp, fun a => rfl⟩
  | cons m conditions ih =>
    rw [List.mapM_cons] at h
    obtain ⟨c, hc, h⟩ := exists_of_bind_ok h
    obtain ⟨cs, hcs, h⟩ := exists_of_bind_ok h
    cases h
    simp only [filterMap_cons_toList]
    exact .cons (fieldCondition_answers hc) (ih hcs)

theorem fieldConditions_answers {field : Text} {conditions : Members} {c : Option Condition}
    (h : d.fieldConditions field conditions = .ok c) :
    Answers d c fun a => Filter.conditionsTruth (d.ask a field) conditions := by
  obtain ⟨parts, hparts, h⟩ := exists_of_bind_ok h
  cases h
  exact (mapM_answers hparts).conjunction

theorem conditionsTruth_singleton (ask : Text → Value → Option Truth) (key : Text) (v : Value) :
    Filter.conditionsTruth ask [(key, v)] = ask key v := by
  rw [Filter.conditionsTruth, filterMap_cons_toList]
  cases ask key v with
  | none => rfl
  | some t => simp [Glue.truth?, Glue.both_neutral]

/-- The condition of a field answers what the field is asked. -/
theorem field_answers {name : Text} {v : Value} {c : Option Condition}
    (h : d.field name v = .ok c) :
    Answers d c fun a => Filter.fieldTruth (d.ask a name) v := by
  cases v with
  | object conditions =>
    rcases conditions with _ | ⟨⟨key, inner⟩, _ | ⟨m, rest⟩⟩
    · exact fieldConditions_answers h
    · by_cases hkey : key = "$not"
      · simp only [field, Filter.fieldTruth, if_pos hkey] at h ⊢
        obtain ⟨c, hc, h⟩ := exists_of_bind_ok h
        cases h
        have hinner := (fieldConditions_answers hc).negation
        cases inner <;> simpa only [negated, Operator.name, conditionsTruth_singleton] using hinner
      · simp only [field, Filter.fieldTruth, if_neg hkey] at h ⊢
        simpa only [conditionsTruth_singleton] using fieldConditions_answers h
    · exact fieldConditions_answers h
  | _ =>
    simpa only [Operator.name, Filter.fieldTruth, conditionsTruth_singleton] using
      fieldConditions_answers h

mutual

/-- The condition of a filter answers what the filter asks. -/
theorem filter_answers (v : Value) {c : Option Condition} (h : d.filter v = .ok c) :
    Answers d c fun a => Filter.truth (d.ask a) v := by
  match v with
  | .object ms =>
    obtain ⟨cs, hcs, h⟩ := exists_of_bind_ok h
    cases h
    exact (filterMembers_answers ms hcs).conjunction
  | .null | .bool _ | .int _ | .float _ | .str _ | .list _ | .tuple _ | .bytes _ | .pattern _
  | .test _ => cases h

theorem filterMembers_answers (ms : List (Text × Value)) {cs : List Condition}
    (h : d.filterMembers ms = .ok cs) :
    AnswersAll d cs fun a => Filter.membersTruth (d.ask a) ms := by
  match ms with
  | [] =>
    cases h
    exact ⟨by simp, fun a => rfl⟩
  | (key, v) :: ms =>
    obtain ⟨c, hc, h⟩ := exists_of_bind_ok h
    obtain ⟨cs, hcs, h⟩ := exists_of_bind_ok h
    cases h
    exact .cons (filterMember_answers key v hc) (filterMembers_answers ms hcs)

theorem filterMember_answers (key : Text) (v : Value) {c : Option Condition}
    (h : d.filterMember key v = .ok c) :
    Answers d c fun a => Filter.memberTruth (d.ask a) key v := by
  have hfield (h : d.field key v = .ok c) := field_answers h
  cases hg : Glue.ofKey? key with
  | some g =>
    match v with
    | .list vs =>
      simp only [filterMember, hg] at h
      obtain ⟨cs, hcs, h⟩ := exists_of_bind_ok h
      cases h
      simpa only [Filter.memberTruth, hg] using (filterClauses_answers vs hcs).clauses g
    | .tuple vs =>
      simp only [filterMember, hg] at h
      obtain ⟨cs, hcs, h⟩ := exists_of_bind_ok h
      cases h
      simpa only [Filter.memberTruth, hg] using (filterClauses_answers vs hcs).clauses g
    | .null | .bool _ | .int _ | .float _ | .str _ | .object _ | .bytes _ | .pattern _ | .test _ =>
      simp only [filterMember, hg] at h
      cases h
  | none =>
    cases v <;> simp only [filterMember, hg] at h <;>
      simpa only [Filter.memberTruth, hg] using hfield h

theorem filterClauses_answers (vs : List Value) {cs : List Condition}
    (h : d.filterClauses vs = .ok cs) :
    AnswersAll d cs fun a => Filter.clausesTruth (d.ask a) vs := by
  match vs with
  | [] =>
    cases h
    exact ⟨by simp, fun a => rfl⟩
  | v :: vs =>
    obtain ⟨c, hc, h⟩ := exists_of_bind_ok h
    obtain ⟨cs, hcs, h⟩ := exists_of_bind_ok h
    cases h
    exact .cons (filter_answers v hc) (filterClauses_answers vs hcs)

end

/-- The condition of an object of criteria answers what the filter asks; the empty one asks for
nothing. -/
theorem condition_answers {ms : Members} {c : Option Condition}
    (h : d.condition (.object ms) = .ok c) :
    Answers d c fun a => Filter.truth (d.ask a) (.object ms) := by
  unfold condition at h
  split at h
  · exact filter_answers _ h
  next hempty =>
    obtain rfl : ms = [] := by simpa [Value.isTruthy] using hempty
    cases h
    exact ⟨by simp, fun a => rfl⟩

end Dialect

end DocStore
