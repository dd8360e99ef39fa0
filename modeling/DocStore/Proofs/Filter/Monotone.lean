import DocStore.Proofs.Filter.Satisfaction

/-!
What one clause more makes of a filter. A conjunction of more clauses is
satisfied by less, and a disjunction by more, but for one case: a disjunction
whose clauses all ask for nothing asks for nothing itself, and one clause more
that asks for something makes it ask for that.
-/

namespace DocStore

namespace Glue

theorem truth?_or_eq_yes {ts : List Truth} :
    (∀ t ∈ Glue.or.truth? ts, t = .yes) ↔ ts = [] ∨ .yes ∈ ts := by
  cases ts with
  | nil => simp [truth?]
  | cons t ts => rw [← truth_or_eq_yes]; simp [truth?]

theorem truth?_and_eq_yes {ts : List Truth} :
    (∀ t ∈ Glue.and.truth? ts, t = .yes) ↔ ∀ t ∈ ts, t = .yes := by
  cases ts with
  | nil => simp [truth?]
  | cons t ts => rw [← truth_and_eq_yes]; simp [truth?]

end Glue

namespace Dialect

open DocStore.Filter

variable {d : Dialect} {b : Bool}

/-- The expression of clauses, and when it is satisfied. -/
theorem exists_reads_ofClauses (hd : d.QuotedBy b) (g : Glue) {vs : List Value}
    (h : ∀ v ∈ vs, d.Compiles v) :
    ∃ tree, d.Reads b (ofClauses g vs) tree ∧
      ∀ a, Satisfied a tree ↔ ∀ t ∈ g.truth? (vs.filterMap (truth (d.ask a))), t = .yes := by
  obtain ⟨tree, hreads, -, htruth⟩ := (compiles_ofClauses g h).exists_reads hd
  refine ⟨tree, hreads, fun a => ?_⟩
  rw [← truth_ofClauses, htruth, Satisfied]
  cases tree <;> simp

/-- A disjunction is satisfied when one of its clauses is true, or when none of them asks for
anything. -/
theorem exists_reads_or (hd : d.QuotedBy b) {vs : List Value} (h : ∀ v ∈ vs, d.Compiles v) :
    ∃ tree, d.Reads b (ofClauses .or vs) tree ∧
      ∀ a, Satisfied a tree ↔
        (∀ v ∈ vs, d.expression v = .ok none) ∨ .yes ∈ vs.filterMap (truth (d.ask a)) := by
  obtain ⟨tree, hreads, hsat⟩ := exists_reads_ofClauses hd .or h
  refine ⟨tree, hreads, fun a => ?_⟩
  have hnone : vs.filterMap (truth (d.ask a)) = [] ↔ ∀ v ∈ vs, d.expression v = .ok none := by
    rw [List.filterMap_eq_nil_iff]
    exact forall₂_congr fun v hv => (h v hv).truth_eq_none_iff hd a
  rw [hsat, Glue.truth?_or_eq_yes, hnone]

/-- A conjunction is satisfied when all of its clauses that ask for something are true. -/
theorem exists_reads_and (hd : d.QuotedBy b) {vs : List Value} (h : ∀ v ∈ vs, d.Compiles v) :
    ∃ tree, d.Reads b (ofClauses .and vs) tree ∧
      ∀ a, Satisfied a tree ↔ ∀ t ∈ vs.filterMap (truth (d.ask a)), t = .yes := by
  obtain ⟨tree, hreads, hsat⟩ := exists_reads_ofClauses hd .and h
  exact ⟨tree, hreads, fun a => by rw [hsat, Glue.truth?_and_eq_yes]⟩

/-- Where one clause more is added to a disjunction, whatever satisfied it satisfies it, unless all of
its clauses asked for nothing and the new one asks for something. What satisfies a conjunction
with one clause more satisfies it without. -/
theorem clauses_monotone (hd : d.QuotedBy b) {cs : List Value} {c : Value}
    (hcs : ∀ v ∈ cs, d.Compiles v) (hc : d.Compiles c) :
    ∃ either either' both both' : Option (Formula Sql),
      d.Reads b (ofClauses .or cs) either ∧ d.Reads b (ofClauses .or (cs ++ [c])) either' ∧
      d.Reads b (ofClauses .and cs) both ∧ d.Reads b (ofClauses .and (cs ++ [c])) both' ∧
      ((∀ a, Satisfied a either → Satisfied a either') ↔
        ((∀ v ∈ cs, d.expression v = .ok none) → d.expression c = .ok none)) ∧
      ∀ a, Satisfied a both' → Satisfied a both := by
  have hall : ∀ v ∈ cs ++ [c], d.Compiles v := by simpa [or_imp, forall_and] using ⟨hcs, hc⟩
  obtain ⟨either, heither, hor⟩ := exists_reads_or hd hcs
  obtain ⟨either', heither', hor'⟩ := exists_reads_or hd hall
  obtain ⟨both, hboth, hand⟩ := exists_reads_and hd hcs
  obtain ⟨both', hboth', hand'⟩ := exists_reads_and hd hall
  refine ⟨either, either', both, both', heither, heither', hboth, hboth', ⟨?_, ?_⟩, ?_⟩
  -- Where nothing is known of the leaves, no clause is true.
  · intro hmono hempty
    have hsat := hmono (fun _ => .unknown) ((hor _).mpr (.inl hempty))
    obtain hnone | hyes := (hor' _).mp hsat
    · exact hnone c (by simp)
    · obtain ⟨v, hv, htruth⟩ := List.mem_filterMap.mp hyes
      exact absurd htruth ((hall v hv).truth_unknown hd)
  · intro hadded a hsat
    refine (hor' a).mpr ?_
    obtain hempty | hyes := (hor a).mp hsat
    · exact .inl (by simpa [or_imp, forall_and] using ⟨hempty, hadded hempty⟩)
    · exact .inr (by simp [hyes])
  · intro a hsat
    exact (hand a).mpr fun t ht => (hand' a).mp hsat t (by simp [ht])

/-- Two clauses, one of which asks for nothing, and a third. -/
theorem clauses_monotone_pair :
    let d := native .mysql
    let cs : List Value := [.object [], .object [("a", .null)]]
    let c : Value := .object [("b", .int 1)]
    ((∀ v ∈ cs, d.Compiles v) ∧ d.Compiles c) ∧
      ∃ either either' both both' : Option (Formula Sql),
        d.Reads true (ofClauses .or cs) either ∧ d.Reads true (ofClauses .or (cs ++ [c])) either' ∧
        d.Reads true (ofClauses .and cs) both ∧ d.Reads true (ofClauses .and (cs ++ [c])) both' ∧
        ((∀ a, Satisfied a either → Satisfied a either') ↔
          ((∀ v ∈ cs, d.expression v = .ok none) → d.expression c = .ok none)) ∧
        ∀ a, Satisfied a both' → Satisfied a both := by
  have hcs : ∀ v ∈ ([.object [], .object [("a", .null)]] : List Value), (native .mysql).Compiles v := by
    simp only [List.forall_mem_cons]
    exact ⟨⟨_, _, rfl, rfl⟩, ⟨_, _, rfl, rfl⟩, by simp⟩
  have hc : (native .mysql).Compiles (.object [("b", .int 1)]) := ⟨_, _, rfl, rfl⟩
  exact ⟨⟨hcs, hc⟩, clauses_monotone (native_quotedBy .mysql) hcs hc⟩

/-- A disjunction of nothing but an empty clause asks for nothing, and asks for something when a clause
is added to it. -/
theorem not_clauses_monotone :
    ¬ ∀ (cs : List Value) (c : Value) (either either' : Option (Formula Sql)), cs ≠ [] →
      (native .pgsql).Reads false (ofClauses .or cs) either →
      (native .pgsql).Reads false (ofClauses .or (cs ++ [c])) either' →
      ∀ a, Satisfied a either → Satisfied a either' := by
  intro hmono
  have hempty : (native .pgsql).Reads false (ofClauses .or [.object []]) none :=
    ⟨none, rfl, .none⟩
  have hcompiles : ∀ v ∈ ([.object []] ++ [.object [("a", .int 1)]] : List Value),
      (native .pgsql).Compiles v := by
    simp only [List.singleton_append, List.forall_mem_cons]
    exact ⟨⟨_, _, rfl, rfl⟩, ⟨_, _, rfl, rfl⟩, by simp⟩
  obtain ⟨either', hreads, hsat⟩ := exists_reads_ofClauses (native_quotedBy .pgsql) .or hcompiles
  have hall := hmono _ _ _ _ (by simp) hempty hreads (fun _ => .no) (by simp [Satisfied])
  exact absurd ((hsat _).mp hall .no rfl) (by decide)

end Dialect

end DocStore
