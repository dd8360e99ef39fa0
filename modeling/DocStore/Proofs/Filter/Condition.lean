import DocStore.Proofs.Sql.Formula

/-!
Conditions: what their parts are made of, what truth they have, and how their
SQL is put together.
-/

namespace DocStore

namespace Glue

theorem ofKey?_key (g : Glue) : ofKey? g.key = some g := by cases g <;> decide

theorem eq_key_of_ofKey? {key : Text} {g : Glue} (h : ofKey? key = some g) : key = g.key := by
  unfold ofKey? at h
  split at h
  next hkey =>
    cases h
    exact hkey
  next =>
    split at h
    next hkey =>
      cases h
      exact hkey
    next => cases h

end Glue

namespace Condition

/-- Conditions whose leaves have a property, and in which no conjunction or list of clauses is
empty. -/
inductive IsMadeOf (P : Sql → Prop) : Condition → Prop where
  | leaf {s : Sql} (h : P s) : IsMadeOf P (.leaf s)
  | all {parts : List Condition} (hne : parts ≠ []) (h : ∀ c ∈ parts, IsMadeOf P c) :
    IsMadeOf P (.all parts)
  | clauses (g : Glue) {parts : List Condition} (hne : parts ≠ [])
    (h : ∀ c ∈ parts, IsMadeOf P c) : IsMadeOf P (.clauses g parts)
  | negation {part : Condition} (h : IsMadeOf P part) : IsMadeOf P (.negation part)

mutual

/-- The truth of a condition, from the truth of its leaves. -/
def truth (v : Text → Truth) : Condition → Truth
  | .leaf s => v s.render
  | .all parts => Glue.and.truth (truths v parts)
  | .clauses g parts => g.truth (truths v parts)
  | .negation part => (part.truth v).not

/-- The truths of conditions. -/
def truths (v : Text → Truth) : List Condition → List Truth
  | [] => []
  | c :: cs => c.truth v :: truths v cs

end

theorem truths_eq (v : Text → Truth) (cs : List Condition) : truths v cs = cs.map (truth v) := by
  induction cs with
  | nil => rfl
  | cons c cs ih => rw [truths, ih, List.map_cons]

theorem sqlParts_eq (parts : List Condition) : sqlParts parts = parts.map sql := by
  induction parts with
  | nil => rfl
  | cons c parts ih => rw [sqlParts, ih, List.map_cons]

theorem sqlClauses_eq (parts : List Condition) :
    sqlClauses parts = parts.map fun c => ("(" ++ c.sql ++ ")" : Sql) := by
  induction parts with
  | nil => rfl
  | cons c parts ih => rw [sqlClauses, ih, List.map_cons]

variable {P : Sql → Prop} {parts : List Condition}

theorem isMadeOf_conjunction? (h : ∀ c ∈ parts, IsMadeOf P c) :
    ∀ c ∈ conjunction? parts, IsMadeOf P c := by
  cases parts with
  | nil => exact fun c hc => nomatch hc
  | cons first rest =>
    rintro _ ⟨⟩
    exact .all (by simp) h

theorem isMadeOf_clauses? (g : Glue) (h : ∀ c ∈ parts, IsMadeOf P c) :
    ∀ c ∈ clauses? g parts, IsMadeOf P c := by
  cases parts with
  | nil => exact fun c hc => nomatch hc
  | cons first rest =>
    rintro _ ⟨⟩
    exact .clauses g (by simp) h

theorem isMadeOf_toList_append {c : Option Condition} (hc : ∀ part ∈ c, IsMadeOf P part)
    (h : ∀ part ∈ parts, IsMadeOf P part) : ∀ part ∈ c.toList ++ parts, IsMadeOf P part := by
  intro part hpart
  obtain hpart | hpart := List.mem_append.mp hpart
  · exact hc part (by simpa using hpart)
  · exact h part hpart

/-- A row of pieces stands in the SQL of an optional condition. -/
def Contains (c : Option Condition) (s : Sql) : Prop := ∃ part ∈ c, s ⊆ part.sql

theorem contains_conjunction? {c : Condition} (h : c ∈ parts) :
    Contains (conjunction? parts) c.sql := by
  obtain ⟨first, rest, rfl⟩ := List.exists_cons_of_ne_nil (List.ne_nil_of_mem h)
  refine ⟨.all (first :: rest), rfl, ?_⟩
  rw [sql, sqlParts_eq]
  exact Sql.subset_join (List.mem_map_of_mem h)

theorem contains_clauses? (g : Glue) {c : Condition} (h : c ∈ parts) :
    Contains (clauses? g parts) c.sql := by
  obtain ⟨first, rest, rfl⟩ := List.exists_cons_of_ne_nil (List.ne_nil_of_mem h)
  refine ⟨.clauses g (first :: rest), rfl, fun p hp => ?_⟩
  have hjoin : p ∈ Sql.join g.word (sqlClauses (first :: rest)) := by
    rw [sqlClauses_eq]
    exact Sql.subset_join (List.mem_map_of_mem h) (by simp [hp])
  simp [sql, hjoin]

theorem Contains.negation {c : Option Condition} {s : Sql} (h : Contains c s) :
    Contains (c.map .negation) s := by
  obtain ⟨part, rfl, hs⟩ := h
  exact ⟨.negation part, rfl, fun p hp => by simp [sql, hs hp]⟩

theorem Contains.mono {c : Option Condition} {s t : Sql} (h : Contains c t) (hs : s ⊆ t) :
    Contains c s := by
  obtain ⟨part, hpart, ht⟩ := h
  exact ⟨part, hpart, List.Subset.trans hs ht⟩

/-- The words that conditions are put together with. -/
def words : List String := ["(", ")", " AND ", " OR ", "NOT ("]

/-- What holds of the pieces of the leaves and of the words around them holds of the pieces of a
condition. -/
theorem forall_mem_sql {Q : Piece → Prop} (hwords : ∀ w ∈ words, Q (.code w)) {c : Condition}
    (h : c.IsMadeOf fun s => ∀ p ∈ s, Q p) : ∀ p ∈ c.sql, Q p := by
  have hword (w : String) (hw : w ∈ words) : ∀ p ∈ Sql.code w, Q p := by
    simpa [Sql.code] using hwords w hw
  have hglue (g : Glue) : Q (.code g.word) := by
    cases g
    · exact hwords _ (by decide)
    · exact hwords _ (by decide)
  induction h with
  | leaf hs => exact hs
  | @all parts _ _ ih =>
    rw [sql, sqlParts_eq]
    exact Sql.forall_mem_join (hglue .and) (List.forall_mem_map.mpr ih)
  | @clauses g parts _ _ ih =>
    rw [sql, sqlClauses_eq]
    have hparts : ∀ s ∈ parts.map fun c => ("(" ++ c.sql ++ ")" : Sql), ∀ p ∈ s, Q p := by
      refine List.forall_mem_map.mpr fun c hc => ?_
      exact List.forall_mem_append.mpr ⟨List.forall_mem_append.mpr ⟨hword _ (by decide), ih c hc⟩,
        hword _ (by decide)⟩
    exact List.forall_mem_append.mpr ⟨List.forall_mem_append.mpr ⟨hword _ (by decide),
      Sql.forall_mem_join (hglue g) hparts⟩, hword _ (by decide)⟩
  | negation _ ih =>
    rw [sql]
    exact List.forall_mem_append.mpr ⟨List.forall_mem_append.mpr ⟨hword _ (by decide), ih⟩,
      hword _ (by decide)⟩

end Condition

/-- The words between clauses leave the parentheses alone. -/
theorem Sql.walkCode_glue (e : Engine) (a : Bool) (g : Glue) (o : Bool) :
    walkCode (e.lexisWith a) false ⟨o, 0⟩ g.word = some ⟨true, 0⟩ := by
  cases e <;> cases g <;> cases o <;> rfl

end DocStore
