import DocStore.Proofs.Filter.Reading

/-!
What satisfies an expression. The text of an expression is read as a formula
over the texts that operators make; truths of these satisfy the expression when
they make the formula true, and an expression that is not there is satisfied by
all. Whether it is satisfied can be seen from the filter that it was made of.
-/

namespace DocStore

namespace Formula

variable {α β : Type}

theorem eval_bind (f : Formula α) (e : α → Formula β) (v : β → Truth) :
    (f.bind e).eval v = f.eval fun a => (e a).eval v := by
  induction f with
  | atom a => rfl
  | not f ih => simp only [bind, eval, ih]
  | join g left right ihl ihr => simp only [bind, eval, ihl, ihr]

theorem eval_congr {f : Formula α} {v w : α → Truth} (h : ∀ a ∈ f.atoms, v a = w a) :
    f.eval v = f.eval w := by
  induction f with
  | atom a => exact h a (by simp [atoms])
  | not f ih => simp only [eval, ih h]
  | join g left right ihl ihr =>
    simp only [atoms, List.mem_append] at h
    simp only [eval, ihl fun a ha => h a (.inl ha), ihr fun a ha => h a (.inr ha)]

/-- Nothing is known of a formula when nothing is known of its atoms. -/
theorem eval_unknown (f : Formula α) : (f.eval fun _ => .unknown) = .unknown := by
  induction f with
  | atom a => rfl
  | not f ih => simp only [eval, ih, Truth.not]
  | join g left right ihl ihr => cases g <;> simp only [eval, ihl, ihr] <;> rfl

end Formula

namespace Glue

theorem both_or_eq_yes {t u : Truth} : Glue.or.both t u = .yes ↔ t = .yes ∨ u = .yes := by
  cases t <;> cases u <;> decide

theorem both_and_eq_yes {t u : Truth} : Glue.and.both t u = .yes ↔ t = .yes ∧ u = .yes := by
  cases t <;> cases u <;> decide

/-- A disjunction is true when one of its clauses is. -/
theorem truth_or_eq_yes {ts : List Truth} : Glue.or.truth ts = .yes ↔ .yes ∈ ts := by
  induction ts with
  | nil => simp [neutral]
  | cons t ts ih => rw [truth_cons, both_or_eq_yes, ih, List.mem_cons, eq_comm]

/-- A conjunction is true when all of its clauses are. -/
theorem truth_and_eq_yes {ts : List Truth} : Glue.and.truth ts = .yes ↔ ∀ t ∈ ts, t = .yes := by
  induction ts with
  | nil => simp [neutral]
  | cons t ts ih => rw [truth_cons, both_and_eq_yes, ih, List.forall_mem_cons]

/-- One question asks what it asks. -/
theorem truth?_toList (g : Glue) (t : Option Truth) : g.truth? t.toList = t := by
  cases t with
  | none => rfl
  | some t => exact congrArg some (g.both_neutral t)

end Glue

namespace Filter

/-- The filter of some clauses. -/
def ofClauses (g : Glue) (clauses : List Value) : Value := .object [(g.key, .list clauses)]

variable (ask : Text → Text → Value → Option Truth)

theorem clausesTruth_eq (vs : List Value) : clausesTruth ask vs = vs.filterMap (truth ask) := by
  induction vs with
  | nil => rfl
  | cons v vs ih => rw [clausesTruth, ih, Dialect.filterMap_cons_toList]

/-- A filter of one member asks what the member does. -/
theorem truth_singleton (key : Text) (v : Value) :
    truth ask (.object [(key, v)]) = memberTruth ask key v := by
  rw [truth, membersTruth, membersTruth, List.append_nil, Glue.truth?_toList]

/-- Clauses together ask what their key says. -/
theorem truth_ofClauses (g : Glue) (vs : List Value) :
    truth ask (ofClauses g vs) = g.truth? (vs.filterMap (truth ask)) := by
  rw [ofClauses, truth_singleton, memberTruth, Glue.ofKey?_key, clausesTruth_eq]

/-- Under the name of a field a filter asks what the field is asked. -/
theorem truth_field {name : Text} (hname : Glue.ofKey? name = none) (v : Value) :
    truth ask (.object [(name, v)]) = fieldTruth (ask name) v := by
  rw [truth_singleton]
  cases v <;> simp only [memberTruth, hname]

end Filter

/-- Truths of leaves satisfy an expression; where there is none, nothing is asked. -/
def Satisfied (v : Text → Truth) (tree : Option (Formula Sql)) : Prop :=
  ∀ f ∈ tree, (f.eval fun s => v s.render) = .yes

/-- The truth of a text that is read as a formula, from the truth of its atoms. -/
def Lexis.truthOf (x : Lexis) (v : List Token → Truth) (t : Text) : Truth :=
  ((Formula.ofText x t).map (·.eval v)).getD .unknown

namespace Dialect

/-- A filter that is an object and has an expression, if only an empty one. -/
def Compiles (d : Dialect) (v : Value) : Prop := ∃ ms r, v = .object ms ∧ d.expression v = .ok r

/-- Criteria have an expression whose text is read as a formula over texts that operators make, each
of them read by itself; or both have none. -/
def Reads (d : Dialect) (hasEscapes : Bool) (criteria : Value) (tree : Option (Formula Sql)) : Prop :=
  ∃ r, d.expression criteria = .ok r ∧
    Option.Rel (fun (s : Sql) (f : Formula Sql) =>
      (∀ leaf ∈ f.atoms, d.Makes leaf ∧
        Formula.ofText (d.engine.lexisWith hasEscapes) leaf.render =
          some (leaf.formula (d.engine.lexisWith hasEscapes))) ∧
      Formula.ofText (d.engine.lexisWith hasEscapes) s.render =
        some (f.bind (Sql.formula (d.engine.lexisWith hasEscapes)))) r tree

/-- Criteria have an expression, and its text is read as a formula. -/
def ReadsAs (d : Dialect) (hasEscapes : Bool) (criteria : Value) (f : Formula (List Token)) : Prop :=
  ∃ s, d.expression criteria = .ok (some s) ∧
    Formula.ofText (d.engine.lexisWith hasEscapes) s.render = some f

open DocStore.Filter

variable {d : Dialect} {b : Bool}

theorem expression_object (ms : Members) :
    d.expression (.object ms) = (do return (← d.filter (.object ms)).map (·.sql)) := by
  cases ms with
  | nil => rfl
  | cons m ms => rfl

theorem Compiles.exists_filter {v : Value} (h : d.Compiles v) : ∃ c, d.filter v = .ok c := by
  obtain ⟨ms, r, rfl, hr⟩ := h
  rw [expression_object] at hr
  obtain ⟨c, hc, -⟩ := exists_of_bind_ok hr
  exact ⟨c, hc⟩

theorem compiles_of_filter {ms : Members} {c : Option Condition}
    (h : d.filter (.object ms) = .ok c) : d.Compiles (.object ms) :=
  ⟨ms, c.map (·.sql), rfl, by rw [expression_object, h]; rfl⟩

/-- What compiles as a member compiles as a filter of that member. -/
theorem compiles_singleton {key : Text} {v : Value} {c : Option Condition}
    (h : d.filterMember key v = .ok c) : d.Compiles (.object [(key, v)]) := by
  refine compiles_of_filter (c := Condition.conjunction? (c.toList ++ [])) ?_
  rw [filter, filterMembers, h]
  rfl

/-- Clauses that each compile compile together. -/
theorem exists_filterClauses {vs : List Value} (h : ∀ v ∈ vs, d.Compiles v) :
    ∃ cs, d.filterClauses vs = .ok cs := by
  induction vs with
  | nil => exact ⟨[], rfl⟩
  | cons v vs ih =>
    obtain ⟨hv, hvs⟩ := List.forall_mem_cons.mp h
    obtain ⟨c, hc⟩ := hv.exists_filter
    obtain ⟨cs, hcs⟩ := ih hvs
    exact ⟨c.toList ++ cs, by rw [filterClauses, hc, hcs]; rfl⟩

theorem compiles_ofClauses (g : Glue) {vs : List Value} (h : ∀ v ∈ vs, d.Compiles v) :
    d.Compiles (ofClauses g vs) := by
  obtain ⟨cs, hcs⟩ := exists_filterClauses h
  refine compiles_singleton (c := Condition.clauses? g cs) ?_
  rw [filterMember, Glue.ofKey?_key]
  simp only [hcs]
  rfl

namespace Compiles

variable (hd : d.QuotedBy b) {v : Value} (h : d.Compiles v)
include hd h

/-- An expression can be read, and has the truth of the filter that it was made of. -/
theorem exists_reads :
    ∃ tree, d.Reads b v tree ∧ (tree = none ↔ d.expression v = .ok none) ∧
      ∀ a : Text → Truth, truth (d.ask a) v = tree.map fun f => f.eval fun s => a s.render := by
  obtain ⟨ms, r, rfl, hr⟩ := h
  obtain ⟨c, hc, hsql⟩ := exists_of_bind_ok hr
  cases hsql
  have hanswers := condition_answers hc
  have hunit : ∀ s, d.Makes s → s.IsUnit (d.engine.lexisWith b) := fun s hs => hs.isUnit hd
  cases c with
  | none => exact ⟨none, ⟨none, hr, .none⟩, by simp [hr], fun a => by rw [hanswers.truth]; rfl⟩
  | some c =>
    have hmade := hanswers.made c rfl
    obtain ⟨ps, hread⟩ := Condition.exists_isRead hunit hmade
    obtain ⟨tree, hformula, hatoms, htruth⟩ := hread.formula
    refine ⟨some tree, ⟨_, hr, .some ⟨fun s hs => ⟨hatoms s hs, ?_⟩, ?_⟩⟩, by simp [hr], fun a => ?_⟩
    · exact (hunit s (hatoms s hs)).toIsBalanced.ofText
    · rw [(Condition.isBalanced_sql hunit hmade).ofText, hformula]
    · rw [hanswers.truth, Option.map_some, Option.map_some, htruth]

/-- A filter has a truth exactly when it has an expression, whatever the truth of its leaves. -/
theorem truth_eq_none_iff (a : Text → Truth) :
    truth (d.ask a) v = none ↔ d.expression v = .ok none := by
  obtain ⟨tree, -, htree, htruth⟩ := exists_reads hd h
  rw [htruth, Option.map_eq_none_iff, htree]

/-- No filter is known to be true when nothing is known of its leaves. -/
theorem truth_unknown : truth (d.ask fun _ => .unknown) v ≠ some .yes := by
  obtain ⟨tree, -, -, htruth⟩ := exists_reads hd h
  rw [htruth]
  cases tree with
  | none => simp
  | some f => simp [Formula.eval_unknown]

/-- The text of a filter that asks for something is read as a formula, and has the truth of the filter,
when the truth of the leaves is that of their texts. -/
theorem exists_readsAs (hasks : d.expression v ≠ .ok none) :
    ∃ f, d.ReadsAs b v f ∧ ∀ w : List Token → Truth,
      truth (d.ask ((d.engine.lexisWith b).truthOf w)) v = some (f.eval w) := by
  obtain ⟨tree, ⟨r, hr, hrel⟩, htree, htruth⟩ := exists_reads hd h
  cases hrel with
  | none => exact absurd hr hasks
  | @some s f hread =>
    refine ⟨_, ⟨s, hr, hread.2⟩, fun w => ?_⟩
    rw [htruth, Option.map_some, Formula.eval_bind]
    refine congrArg some (Formula.eval_congr fun leaf hleaf => ?_)
    simp [Lexis.truthOf, (hread.1 leaf hleaf).2]

end Compiles

end Dialect

end DocStore
