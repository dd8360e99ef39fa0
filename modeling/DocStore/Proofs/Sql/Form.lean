import DocStore.Proofs.Sql.Outline

/-!
Forms of SQL. An expression is written by filling the gaps of fixed words with
further expressions. What matters about a filling is only that it is a unit:
its parentheses match, and no junction stands outside of them. So a form is
looked at once, with bare literals in its gaps, and every filling of it by
units is a unit again.
-/

namespace DocStore

/-- The first token of a text, when it is read to its end. -/
def Lexis.first? (x : Lexis) (t : Text) : Option Token := (x.lex t).bind List.head?

namespace Sql

/-- Whether a row of pieces begins with something else than a negation. -/
def isPlain (x : Lexis) : Sql → Bool
  | [] => false
  | .code t :: _ => (x.first? t).any fun u => !u.isNegation
  | .literal _ :: _ => true
  | .identifier _ :: _ => true
  | .number _ :: _ => true

/-- A row of valid pieces whose parentheses match. A strict one has no junction outside of them. -/
structure IsBalanced (x : Lexis) (isStrict : Bool) (s : Sql) : Prop where
  valid : ∀ p ∈ s, p.IsValid x
  walk : ∃ o, walk x isStrict ⟨true, 0⟩ s = some ⟨o, 0⟩

/-- A row of pieces that is read as one operand or condition. -/
structure IsUnit (x : Lexis) (s : Sql) : Prop extends IsBalanced x true s where
  plain : s.isPlain x = true

/-- A row of pieces fills a form: fixed words stand as they are, and a bare literal is a gap for
any unit. -/
inductive Fills (x : Lexis) : Sql → Sql → Prop
  | code (t : Text) : Fills x [.code t] [.code t]
  | unit {s : Sql} : s.IsUnit x → Fills x [.literal []] s
  | append {f g s t : Sql} : Fills x f s → Fills x g t → Fills x (f ++ g) (s ++ t)

variable {x : Lexis} {b c : Bool}

theorem walkCode_mono {p q : Place} {o : Bool} {t : Text} (h : walkCode x b p t = some q)
    (ho : p.isFree → o = true) : walkCode x b ⟨o, p.depth⟩ t = some q := by
  unfold walkCode at h ⊢
  split at h
  next hfree =>
    rw [if_pos (by cases hp : p.isFree <;> simp_all)]
    exact h
  next => cases h

/-- More may follow where more may follow, and the parentheses stand alike. -/
theorem walk_mono {p q : Place} {o : Bool} {s : Sql} (h : walk x b p s = some q)
    (ho : p.isFree → o = true) :
    ∃ o', walk x b ⟨o, p.depth⟩ s = some ⟨o', q.depth⟩ ∧ (q.isFree → o' = true) := by
  cases s with
  | nil => cases h; exact ⟨o, rfl, ho⟩
  | cons y s =>
    cases y with
    | code t =>
      obtain ⟨r, hr, h⟩ := Option.bind_eq_some_iff.mp h
      exact ⟨q.isFree, by rw [walk, walkCode_mono hr ho]; exact h, id⟩
    | literal t =>
      simp only [walk] at h ⊢
      split at h
      next hp => exact ⟨q.isFree, by rw [if_pos (ho hp)]; exact h, id⟩
      next => cases h
    | identifier t =>
      simp only [walk] at h ⊢
      split at h
      next hp => exact ⟨q.isFree, by rw [if_pos (ho hp)]; exact h, id⟩
      next => cases h
    | number t =>
      simp only [walk] at h ⊢
      split at h
      next hp => exact ⟨q.isFree, by rw [if_pos (ho hp)]; exact h, id⟩
      next => cases h

theorem walkCode_add {i k : Nat} {o : Bool} {q : Place} {t : Text}
    (h : walkCode x b ⟨o, i⟩ t = some q) (hc : c = true → b = true ∨ 0 < k) :
    walkCode x c ⟨o, i + k⟩ t = some ⟨q.isFree, q.depth + k⟩ := by
  unfold walkCode at h ⊢
  split at h
  next hfree =>
    rw [if_pos hfree]
    split at h
    next a ha =>
      obtain ⟨l, hl, rfl⟩ := Option.map_eq_some_iff.mp h
      rw [Token.nest_add hl hc]
      rfl
    next => cases h
  next => cases h

/-- What is gone through is gone through inside further parentheses. -/
theorem walk_add {i k : Nat} {o : Bool} {q : Place} {s : Sql}
    (h : walk x b ⟨o, i⟩ s = some q) (hc : c = true → b = true ∨ 0 < k) :
    walk x c ⟨o, i + k⟩ s = some ⟨q.isFree, q.depth + k⟩ := by
  induction s generalizing i o with
  | nil => cases h; rfl
  | cons y s ih =>
    cases y with
    | code t =>
      obtain ⟨r, hr, h⟩ := Option.bind_eq_some_iff.mp h
      rw [walk, walkCode_add hr hc]
      exact ih h
    | literal t =>
      simp only [walk] at h ⊢
      split at h
      next hp => rw [if_pos hp]; exact ih h
      next => cases h
    | identifier t =>
      simp only [walk] at h ⊢
      split at h
      next hp => rw [if_pos hp]; exact ih h
      next => cases h
    | number t =>
      simp only [walk] at h ⊢
      split at h
      next hp => rw [if_pos hp]; exact ih h
      next => cases h

namespace IsBalanced

/-- A row that is balanced by itself is balanced where it stands. -/
theorem walk_at {s : Sql} (h : s.IsBalanced x b) :
    ∃ o, ∀ c k, (c = true → b = true ∨ 0 < k) → Sql.walk x c ⟨true, k⟩ s = some ⟨o, k⟩ := by
  obtain ⟨o, ho⟩ := h.walk
  refine ⟨o, fun c k hc => ?_⟩
  simpa using walk_add ho hc

theorem loosen {s : Sql} (h : s.IsBalanced x b) : s.IsBalanced x false := by
  obtain ⟨o, ho⟩ := h.walk_at
  exact ⟨h.valid, o, ho false 0 (by simp)⟩

/-- The tokens of a balanced row, and how the parentheses stand. -/
theorem lex {s : Sql} (h : s.IsBalanced x b) :
    x.lex s.render = some (s.tokens x) ∧ Token.nest b 0 (s.tokens x) = some 0 := by
  obtain ⟨o, ho⟩ := h.walk
  exact lex_render h.valid ho

end IsBalanced

theorem IsBalanced.append {s t : Sql} {sep : Text} (hs : s.IsBalanced x b) (ht : t.IsBalanced x b)
    (hsep : ∀ o, walkCode x b ⟨o, 0⟩ sep = some ⟨true, 0⟩) :
    (s ++ (.code sep :: t)).IsBalanced x b := by
  obtain ⟨o, hs'⟩ := hs.walk
  obtain ⟨o', ht'⟩ := ht.walk
  refine ⟨?_, o', ?_⟩
  · intro p hp
    obtain hp | hp := List.mem_append.mp hp
    · exact hs.valid p hp
    · obtain rfl | hp := List.mem_cons.mp hp
      · trivial
      · exact ht.valid p hp
  · rw [walk_append, hs', Option.bind_some, Sql.walk, hsep, Option.bind_some, ht']

/-- Words that leave the parentheses alone may stand before a balanced row. -/
theorem IsBalanced.headed {s : Sql} (hs : s.IsBalanced x b) {head : Text}
    (hhead : walkCode x b ⟨true, 0⟩ head = some ⟨true, 0⟩) : IsBalanced x b (.code head :: s) := by
  obtain ⟨o, ho⟩ := hs.walk
  refine ⟨?_, o, ?_⟩
  · exact List.forall_mem_cons.mpr ⟨trivial, hs.valid⟩
  · rw [Sql.walk, hhead, Option.bind_some, ho]

theorem join_cons_cons (sep : String) (s t : Sql) (parts : List Sql) :
    join sep (s :: t :: parts) = s ++ (.code sep :: join sep (t :: parts)) := by
  simp [join, List.intercalate, code]

/-- What holds of the pieces of some rows and of the words between them holds of the whole row. -/
theorem forall_mem_join {P : Piece → Prop} {sep : String} (hsep : P (.code sep)) {parts : List Sql}
    (h : ∀ s ∈ parts, ∀ p ∈ s, P p) : ∀ p ∈ Sql.join sep parts, P p := by
  induction parts with
  | nil => simp [Sql.join, List.intercalate]
  | cons s parts ih =>
    obtain ⟨hs, hparts⟩ := List.forall_mem_cons.mp h
    cases parts with
    | nil => simpa [Sql.join, List.intercalate] using hs
    | cons t parts =>
      rw [join_cons_cons]
      exact List.forall_mem_append.mpr ⟨hs, List.forall_mem_cons.mpr ⟨hsep, ih hparts⟩⟩

theorem subset_join {sep : String} {parts : List Sql} {s : Sql} (h : s ∈ parts) :
    s ⊆ Sql.join sep parts := by
  induction parts with
  | nil => cases h
  | cons first parts ih =>
    cases parts with
    | nil =>
      obtain rfl := List.mem_singleton.mp h
      simp [Sql.join, List.intercalate]
    | cons next parts =>
      rw [join_cons_cons]
      obtain rfl | h := List.mem_cons.mp h
      · exact List.subset_append_left _ _
      · exact fun p hp => List.mem_append_right _ (List.mem_cons_of_mem _ (ih h hp))

/-- Balanced rows are balanced with words between them that leave the parentheses alone. -/
theorem IsBalanced.join {sep : String} (hsep : ∀ o, walkCode x b ⟨o, 0⟩ sep = some ⟨true, 0⟩)
    {parts : List Sql} (h : ∀ s ∈ parts, s.IsBalanced x b) :
    (Sql.join sep parts).IsBalanced x b := by
  induction parts with
  | nil => exact ⟨by simp [Sql.join, List.intercalate], true, rfl⟩
  | cons s parts ih =>
    obtain ⟨hs, hparts⟩ := List.forall_mem_cons.mp h
    cases parts with
    | nil => simpa [Sql.join, List.intercalate] using hs
    | cons t parts =>
      rw [join_cons_cons]
      exact hs.append (ih hparts) hsep

theorem IsUnit.ne_nil {s : Sql} (h : s.IsUnit x) : s ≠ [] := by
  rintro rfl
  simpa [isPlain] using h.plain

theorem isPlain_append {s : Sql} (hs : s ≠ []) (t : Sql) :
    isPlain x (s ++ t) = isPlain x s := by
  obtain ⟨p, s, rfl⟩ := List.exists_cons_of_ne_nil hs
  cases p <;> rfl

/-- Units with words between them that leave the parentheses alone are a unit. -/
theorem IsUnit.join {sep : String} (hsep : ∀ o, walkCode x true ⟨o, 0⟩ sep = some ⟨true, 0⟩)
    {parts : List Sql} (hne : parts ≠ []) (h : ∀ s ∈ parts, s.IsUnit x) :
    (Sql.join sep parts).IsUnit x := by
  refine ⟨.join hsep fun s hs => (h s hs).toIsBalanced, ?_⟩
  obtain ⟨s, parts, rfl⟩ := List.exists_cons_of_ne_nil hne
  have hs := h s (by simp)
  cases parts with
  | nil => simpa [Sql.join, List.intercalate] using hs.plain
  | cons t parts => rw [join_cons_cons, isPlain_append hs.ne_nil, hs.plain]

namespace Fills

theorem valid {f s : Sql} (h : Fills x f s) : ∀ p ∈ s, p.IsValid x := by
  induction h with
  | code t => simp [Piece.IsValid]
  | unit hs => exact hs.valid
  | append _ _ ihs iht =>
    intro p hp
    exact (List.mem_append.mp hp).elim (ihs p) (iht p)

/-- The parentheses of a filling stand as those of the form. -/
theorem walk {f s : Sql} (h : Fills x f s) {p q : Place} (hf : Sql.walk x b p f = some q) :
    ∃ o, Sql.walk x b p s = some ⟨o, q.depth⟩ ∧ (q.isFree → o = true) := by
  induction h generalizing p q with
  | code t => exact ⟨q.isFree, hf, id⟩
  | unit hs =>
    obtain ⟨o, ho⟩ := hs.walk_at
    simp only [Sql.walk] at hf
    split at hf
    next hp =>
      cases hf
      refine ⟨o, ?_, by simp⟩
      obtain ⟨free, k⟩ := p
      cases hp
      exact ho b k fun _ => .inl rfl
    next => cases hf
  | append _ _ ihs iht =>
    rw [walk_append] at hf
    obtain ⟨r, hr, hq⟩ := Option.bind_eq_some_iff.mp hf
    obtain ⟨o, hs, ho⟩ := ihs hr
    obtain ⟨o', ht, ho'⟩ := iht hq
    obtain ⟨o'', ht', ho''⟩ := walk_mono ht ho
    exact ⟨o'', by rw [walk_append, hs]; exact ht', fun hq => ho'' (ho' hq)⟩

theorem ne_nil {f s : Sql} (h : Fills x f s) : f ≠ [] ∧ s ≠ [] := by
  induction h with
  | code t => simp
  | unit hs => exact ⟨by simp, hs.ne_nil⟩
  | append _ _ ihs _ => simp [ihs.1, ihs.2]

theorem plain {f s : Sql} (h : Fills x f s) (hf : f.isPlain x = true) : s.isPlain x = true := by
  induction h with
  | code t => exact hf
  | unit hs => exact hs.plain
  | append hs _ ihs _ =>
    obtain ⟨hf₀, hs₀⟩ := hs.ne_nil
    rw [isPlain_append hf₀] at hf
    rw [isPlain_append hs₀, ihs hf]

end Fills

/-- Whether a form with bare literals in its gaps is a unit. -/
def isForm (x : Lexis) (f : Sql) : Bool :=
  f.isPlain x && (Sql.walk x true ⟨true, 0⟩ f).any fun p => p.depth = 0

/-- A form that is filled with units is a unit. -/
theorem Fills.isUnit {f s : Sql} (h : Fills x f s) (hf : isForm x f = true) : s.IsUnit x := by
  simp only [isForm, Bool.and_eq_true, Option.any_eq_true, decide_eq_true_eq] at hf
  obtain ⟨hplain, q, hq, hdepth⟩ := hf
  obtain ⟨o, ho, -⟩ := h.walk hq
  exact ⟨⟨h.valid, o, by rw [ho, hdepth]⟩, h.plain hplain⟩

/-! ### Parentheses and separators -/

variable (e : Engine) (a : Bool)

theorem walkCode_comma (o : Bool) :
    walkCode (e.lexisWith a) true ⟨o, 0⟩ ", " = some ⟨true, 0⟩ := by
  cases e <;> cases o <;> rfl

theorem walkCode_and (o : Bool) :
    walkCode (e.lexisWith a) false ⟨o, 0⟩ " AND " = some ⟨true, 0⟩ := by
  cases e <;> cases o <;> rfl

variable {e : Engine} {a : Bool}

/-- Whatever is balanced is strictly balanced between words that open and close a parenthesis. -/
theorem IsBalanced.enclosed {s : Sql} (h : s.IsBalanced (e.lexisWith a) b) (opening : Text)
    (hopening : walkCode (e.lexisWith a) true ⟨true, 0⟩ opening = some ⟨true, 1⟩) :
    IsBalanced (e.lexisWith a) true ([.code opening] ++ s ++ [.code ")"]) := by
  obtain ⟨o, ho⟩ := h.walk_at
  refine ⟨?_, true, ?_⟩
  · simpa [Piece.IsValid, or_imp, forall_and] using h.valid
  · have hinner := ho true 1 (by simp)
    have hclose : walkCode (e.lexisWith a) true ⟨o, 1⟩ ")" = some ⟨true, 0⟩ := by
      cases e <;> cases o <;> rfl
    simp [Sql.walk, walk_append, hopening, hinner, hclose]

/-- Whatever is balanced is a unit in parentheses. -/
theorem IsBalanced.grouped {s : Sql} (h : s.IsBalanced (e.lexisWith a) b) :
    IsUnit (e.lexisWith a) ("(" ++ s ++ ")") :=
  ⟨h.enclosed "(" (by cases e <;> rfl), by cases e <;> rfl⟩

theorem IsBalanced.negated {s : Sql} (h : s.IsBalanced (e.lexisWith a) b) :
    IsBalanced (e.lexisWith a) true ("NOT (" ++ s ++ ")") :=
  h.enclosed "NOT (" (by cases e <;> rfl)

end Sql

end DocStore
