import DocStore.Text.Basic

/-!
Halves of surrogate pairs that meet. A text may hold a first half right before
a second half; written as two escapes, the two are read as one character.
`rejoined` is what such a reading makes of a text, and it changes a text
exactly when there is such a pair in it.
-/

namespace DocStore

namespace CodePoint

theorem not_isLowSurrogate {c : CodePoint} (h : c.isHighSurrogate = true) :
    c.isLowSurrogate = false := by
  simp only [isHighSurrogate, isLowSurrogate, Bool.and_eq_true, decide_eq_true_eq] at h ⊢
  simp only [Bool.and_eq_false_iff, decide_eq_false_iff_not]
  omega

theorem isHighSurrogate_surrogates {c : CodePoint} (h : 0x10000 ≤ c.val) :
    c.surrogates.1 < 0x10000 ∧ (ofNat c.surrogates.1).isHighSurrogate = true := by
  have hc := c.lt
  have hlt : c.surrogates.1 < 0xdc00 := by
    simp only [surrogates]
    omega
  refine ⟨by omega, ?_⟩
  rw [isHighSurrogate, val_ofNat (by omega)]
  simp only [Bool.and_eq_true, decide_eq_true_eq]
  exact ⟨by simp [surrogates], hlt⟩

theorem isLowSurrogate_surrogates (c : CodePoint) :
    c.surrogates.2 < 0x10000 ∧ (ofNat c.surrogates.2).isLowSurrogate = true := by
  have hlt : c.surrogates.2 < 0xe000 := by
    simp only [surrogates]
    omega
  refine ⟨by omega, ?_⟩
  rw [isLowSurrogate, val_ofNat (by omega)]
  simp only [Bool.and_eq_true, decide_eq_true_eq]
  exact ⟨by simp [surrogates], hlt⟩

/-- The halves of a character make up the character. -/
theorem joinSurrogates_surrogates {c : CodePoint} (h : 0x10000 ≤ c.val) :
    (ofNat c.surrogates.1).joinSurrogates (ofNat c.surrogates.2) = c := by
  have hc := c.lt
  have hhigh : (ofNat c.surrogates.1).val = c.surrogates.1 :=
    val_ofNat (by have := (isHighSurrogate_surrogates h).1; omega)
  have hlow : (ofNat c.surrogates.2).val = c.surrogates.2 :=
    val_ofNat (by have := (isLowSurrogate_surrogates c).1; omega)
  ext
  rw [joinSurrogates, hhigh, hlow]
  simp only [surrogates]
  rw [val_ofNat (by omega)]
  omega

end CodePoint

namespace Text

/-- A first half of a surrogate pair stands right before a second half. -/
def HasPair (t : Text) : Prop :=
  ∃ before high low after, t = before ++ high :: low :: after ∧
    high.isHighSurrogate = true ∧ low.isLowSurrogate = true

theorem hasPair_cons_cons {c d : CodePoint} {t : Text} :
    HasPair (c :: d :: t) ↔
      (c.isHighSurrogate = true ∧ d.isLowSurrogate = true) ∨ HasPair (d :: t) := by
  constructor
  · rintro ⟨before, high, low, after, heq, hhigh, hlow⟩
    cases before with
    | nil =>
      cases heq
      exact .inl ⟨hhigh, hlow⟩
    | cons b before =>
      obtain ⟨-, heq⟩ := List.cons_eq_cons.mp heq
      exact .inr ⟨before, high, low, after, heq, hhigh, hlow⟩
  · rintro (⟨hc, hd⟩ | ⟨before, high, low, after, heq, hhigh, hlow⟩)
    · exact ⟨[], c, d, t, rfl, hc, hd⟩
    · exact ⟨c :: before, high, low, after, by rw [heq]; rfl, hhigh, hlow⟩

theorem not_hasPair_of_length_le_one {t : Text} (h : t.length ≤ 1) : ¬HasPair t := by
  rintro ⟨before, high, low, after, rfl, -, -⟩
  simp only [List.length_append, List.length_cons] at h
  omega

theorem not_hasPair_of_isEncodable {t : Text} (h : t.isEncodable = true) : ¬HasPair t := by
  rintro ⟨before, high, low, after, rfl, hhigh, -⟩
  simp only [isEncodable_append, isEncodable_cons, CodePoint.isSurrogate_eq, hhigh] at h
  simp at h

/-- A text in which every such pair is put together, found from the left. -/
def rejoined : Text → Text
  | [] => []
  | [c] => [c]
  | c :: d :: t =>
    if c.isHighSurrogate && d.isLowSurrogate then c.joinSurrogates d :: rejoined t
    else c :: rejoined (d :: t)

theorem length_rejoined_le (t : Text) : (rejoined t).length ≤ t.length := by
  fun_induction rejoined t with
  | case1 => exact Nat.le_refl _
  | case2 c => exact Nat.le_refl _
  | case3 c d t h ih =>
    simp only [List.length_cons]
    omega
  | case4 c d t h ih =>
    simp only [List.length_cons] at ih ⊢
    omega

theorem rejoined_eq_self_iff (t : Text) : rejoined t = t ↔ ¬HasPair t := by
  fun_induction rejoined t with
  | case1 => exact iff_of_true rfl (not_hasPair_of_length_le_one (by simp))
  | case2 c => exact iff_of_true rfl (not_hasPair_of_length_le_one (by simp))
  | case3 c d t h ih =>
    -- the joined text is shorter
    have hlength := length_rejoined_le t
    refine iff_of_false (fun heq => ?_) (not_not_intro (hasPair_cons_cons.mpr (.inl ?_)))
    · have := congrArg List.length heq
      simp only [List.length_cons] at this
      omega
    · simpa using h
  | case4 c d t h ih =>
    rw [List.cons_eq_cons, hasPair_cons_cons, ih]
    simp only [Bool.and_eq_true] at h
    simp [h]

end Text

end DocStore
