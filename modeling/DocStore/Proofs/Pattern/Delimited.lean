import DocStore.Pattern.Delimited

/-!
Texts that are an expression between slashes. Only letters may stand after the
closing slash, so it is the last one of the text, whatever the expression has in
it: a text is at most one expression between slashes. Of such a text exactly the
expression is taken, and every other text is taken as it is.
-/

namespace DocStore.Pattern

/-- A text is an expression between slashes. Letters may stand after the closing one, and a newline
after everything. -/
def Delimits (pattern t : Text) : Prop :=
  ∃ letters : Text, letters.all Text.isAsciiLetter = true ∧
    (t = "/" ++ pattern ++ "/" ++ letters ∨ t = "/" ++ pattern ++ "/" ++ letters ++ "\n")

variable {pattern t : Text}

theorem isFlags_iff : isFlags t = true ↔
    ∃ letters : Text, letters.all Text.isAsciiLetter = true ∧
      (t = letters ∨ t = letters ++ [CodePoint.ofChar '\n']) := by
  obtain rfl | ⟨u, c, rfl⟩ := t.eq_nil_or_concat
  · exact iff_of_true rfl ⟨[], rfl, .inl rfl⟩
  · have hflags : isFlags (u ++ [c]) = true ↔ (u ++ [c]).all Text.isAsciiLetter = true ∨
        c = '\n' ∧ u.all Text.isAsciiLetter = true := by
      simp [isFlags]
    rw [List.concat_eq_append, hflags]
    constructor
    · rintro (hall | ⟨rfl, hall⟩)
      · exact ⟨_, hall, .inl rfl⟩
      · exact ⟨u, hall, .inr rfl⟩
    · rintro ⟨letters, hall, rfl | heq⟩
      · exact .inl hall
      · obtain ⟨rfl, hc⟩ := List.append_inj' heq rfl
        exact .inr ⟨List.singleton_inj.mp hc, hall⟩

theorem slash_not_mem_of_isFlags (h : isFlags t = true) : CodePoint.ofChar '/' ∉ t := by
  have hletters {letters : Text} (hall : letters.all Text.isAsciiLetter = true) :
      CodePoint.ofChar '/' ∉ letters := fun hmem =>
    absurd (List.all_eq_true.mp hall _ hmem) (by decide)
  obtain ⟨letters, hall, rfl | rfl⟩ := isFlags_iff.mp h
  · exact hletters hall
  · simpa [hletters hall] using show CodePoint.ofChar '/' ≠ '\n' by decide

theorem delimits_iff : Delimits pattern t ↔
    ∃ flags, isFlags flags = true ∧
      t = CodePoint.ofChar '/' :: (pattern ++ CodePoint.ofChar '/' :: flags) := by
  have hplain (letters : Text) : ("/" ++ pattern ++ "/" ++ letters : Text) =
      CodePoint.ofChar '/' :: (pattern ++ CodePoint.ofChar '/' :: letters) := by
    simp [Text.ofString]
  have hnewline (letters : Text) : ("/" ++ pattern ++ "/" ++ letters ++ "\n" : Text) =
      CodePoint.ofChar '/' ::
        (pattern ++ CodePoint.ofChar '/' :: (letters ++ [CodePoint.ofChar '\n'])) := by
    simp [Text.ofString]
  constructor
  · rintro ⟨letters, hall, rfl | rfl⟩
    · exact ⟨letters, isFlags_iff.mpr ⟨letters, hall, .inl rfl⟩, hplain letters⟩
    · exact ⟨_, isFlags_iff.mpr ⟨letters, hall, .inr rfl⟩, hnewline letters⟩
  · rintro ⟨flags, hflags, rfl⟩
    obtain ⟨letters, hall, rfl | rfl⟩ := isFlags_iff.mp hflags
    · exact ⟨_, hall, .inl (hplain _).symm⟩
    · exact ⟨letters, hall, .inr (hnewline letters).symm⟩

/-- The closing slash is the last one, since there is none among what follows it. -/
theorem withoutDelimiters_of_isFlags {flags : Text} (h : isFlags flags = true) (pattern : Text) :
    withoutDelimiters (CodePoint.ofChar '/' :: (pattern ++ CodePoint.ofChar '/' :: flags)) = pattern := by
  have hnone : ∀ c ∈ flags.reverse, decide (c ≠ CodePoint.ofChar '/') = true := by
    intro c hc
    rw [decide_eq_true_eq]
    rintro rfl
    exact slash_not_mem_of_isFlags h (List.mem_reverse.mp hc)
  have hreverse : (pattern ++ CodePoint.ofChar '/' :: flags).reverse =
      flags.reverse ++ CodePoint.ofChar '/' :: pattern.reverse := by
    simp
  unfold withoutDelimiters
  dsimp only
  rw [if_pos rfl, hreverse, List.dropWhile_append_of_pos hnone, List.takeWhile_append_of_pos hnone,
    List.dropWhile_cons_of_neg (by simp), List.takeWhile_cons_of_neg (by simp)]
  simp [h]

theorem Delimits.eq (h : Delimits pattern t) : withoutDelimiters t = pattern := by
  obtain ⟨flags, hflags, rfl⟩ := delimits_iff.mp h
  exact withoutDelimiters_of_isFlags hflags pattern

/-- What is taken of a text is the expression that it has between slashes, or all of it. -/
theorem delimits_or_eq (t : Text) : Delimits (withoutDelimiters t) t ∨ withoutDelimiters t = t := by
  cases t with
  | nil => exact .inr rfl
  | cons c rest =>
    unfold withoutDelimiters
    dsimp only
    split
    next hc =>
      split
      next => exact .inr rfl
      next slash body hbody =>
        split
        next hflags =>
          obtain rfl : slash = '/' := by
            have hhead :=
              List.head?_dropWhile_not (fun c : CodePoint => decide (c ≠ '/')) rest.reverse
            rw [hbody] at hhead
            simpa using hhead
          have hrest : rest = body.reverse ++ CodePoint.ofChar '/' ::
              (rest.reverse.takeWhile fun c : CodePoint => c ≠ '/').reverse := by
            rw [← List.reverse_inj, List.reverse_append, List.reverse_cons, List.reverse_reverse,
              List.reverse_reverse, List.append_assoc, List.singleton_append, ← hbody]
            exact List.takeWhile_append_dropWhile.symm
          exact .inl (delimits_iff.mpr ⟨_, hflags, List.cons_eq_cons.mpr ⟨hc, hrest⟩⟩)
        next => exact .inr rfl
    next => exact .inr rfl

theorem withoutDelimiters_eq_iff : withoutDelimiters t = pattern ↔
    Delimits pattern t ∨ pattern = t ∧ ∀ other, ¬Delimits other t := by
  constructor
  · rintro rfl
    obtain h | h := delimits_or_eq t
    · exact .inl h
    · by_cases hother : ∃ other, Delimits other t
      · obtain ⟨other, hother⟩ := hother
        exact .inl (hother.eq ▸ hother)
      · exact .inr ⟨h, not_exists.mp hother⟩
  · rintro (h | ⟨rfl, hother⟩)
    · exact h.eq
    · exact (delimits_or_eq pattern).resolve_left (hother _)

end DocStore.Pattern
