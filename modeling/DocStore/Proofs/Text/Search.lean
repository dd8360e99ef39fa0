import DocStore.Text.Blank
import DocStore.Text.Case

/-!
What is found in a text. A word in ASCII is found in the lower-case form of a
text just where the text spells it in either case of its letters: no other code
point has one of them as its lower-case form, but for the dotted capital I, whose
form goes on with a dot.
-/

namespace DocStore

namespace Text

variable {t part rest : Text}

theorem after?_append (start rest : Text) : after? (start ++ rest) start = some rest := by
  induction start with
  | nil => cases rest <;> rfl
  | cons c start ih =>
    rw [List.cons_append, after?, if_pos rfl]
    exact ih

theorem after?_eq_some_iff : t.after? part = some rest ↔ t = part ++ rest := by
  constructor
  · intro h
    induction part generalizing t with
    | nil => cases t <;> exact Option.some.inj h
    | cons d part ih =>
      cases t with
      | nil => cases h
      | cons c t =>
        rw [after?] at h
        split at h
        next hcd => rw [hcd, ih h, List.cons_append]
        · cases h
  · rintro rfl
    exact after?_append part rest

theorem startsWith_iff : t.startsWith part = true ↔ part <+: t := by
  rw [startsWith, Option.isSome_iff_exists]
  simp only [after?_eq_some_iff]
  exact ⟨fun ⟨rest, h⟩ => ⟨rest, h.symm⟩, fun ⟨rest, h⟩ => ⟨rest, h.symm⟩⟩

theorem includes_iff : t.includes part = true ↔ part <:+: t := by
  induction t with
  | nil => rw [includes, startsWith_iff, List.prefix_nil, List.infix_nil]
  | cons c t ih => rw [includes, Bool.or_eq_true, startsWith_iff, ih, List.infix_cons_iff]

/-! ### Texts that were trimmed -/

variable {p : CodePoint → Bool}

theorem trimEnd_prefix (p : CodePoint → Bool) (t : Text) : t.trimEnd p <+: t := by
  rw [trimEnd, ← List.reverse_suffix, List.reverse_reverse]
  exact List.dropWhile_suffix p

theorem trimEnd_append {t : Text} (h : ∀ c ∈ t.getLast?, p c = false) (rest : Text) :
    trimEnd p (t ++ rest) = t ++ trimEnd p rest := by
  have hreverse : t.reverse.dropWhile p = t.reverse := by
    rw [← List.head?_reverse] at h
    cases hcs : t.reverse with
    | nil => rfl
    | cons c cs =>
      rw [hcs] at h
      rw [List.dropWhile_cons_of_neg (by simp [h c rfl])]
  rw [trimEnd, trimEnd, List.reverse_append, List.dropWhile_append, hreverse]
  split
  next hempty =>
    rw [List.isEmpty_iff.mp hempty, List.reverse_reverse, List.reverse_nil, List.append_nil]
  next => rw [List.reverse_append, List.reverse_reverse]

/-- A text that neither begins nor ends with what is trimmed stays when more comes after it. -/
theorem trim_append {t : Text} (hne : t ≠ []) (hhead : ∀ c ∈ t.head?, p c = false)
    (hlast : ∀ c ∈ t.getLast?, p c = false) (rest : Text) :
    trim p (t ++ rest) = t ++ trimEnd p rest := by
  obtain ⟨c, t, rfl⟩ := List.exists_cons_of_ne_nil hne
  rw [trim, List.cons_append, List.dropWhile_cons_of_neg (by simp [hhead c rfl]), ← List.cons_append]
  exact trimEnd_append hlast rest

/-! ### Words in either case -/

/-- The lower-case form of the ASCII letters; every other code point is its own. -/
def asciiLower (c : CodePoint) : CodePoint :=
  if 0x41 ≤ c.val ∧ c.val ≤ 0x5a then CodePoint.ofNat (c.val + 0x20) else c

/-- A text spells a word somewhere, in either case of its letters. -/
def Spells (t word : Text) : Prop := ∃ part, part <:+: t ∧ part.map asciiLower = word

/-- A lower-case ASCII letter that is no other letter's lower-case form than its own capital's. The
Kelvin sign is a further capital of the letter k. -/
def IsPlainLetter (c : CodePoint) : Prop := 0x61 ≤ c.val ∧ c.val ≤ 0x7a ∧ c.val ≠ 0x6b

instance (c : CodePoint) : Decidable (IsPlainLetter c) := instDecidableAnd

/-- A word of such letters that does not end where the form of the dotted capital I goes on. -/
structure IsPlainWord (word : Text) : Prop where
  letters : ∀ c ∈ word, IsPlainLetter c
  getLast? : word.getLast? ≠ some 'i'

variable {c : CodePoint}

theorem asciiLower_of_le (h : 0x80 ≤ c.val) : asciiLower c = c := by
  rw [asciiLower, if_neg (by omega)]

theorem lower_ofNat_of_lt :
    ∀ n < 0x80, (CodePoint.ofNat n).lower = [asciiLower (CodePoint.ofNat n)] := by
  decide +kernel

theorem lower_of_lt (h : c.val < 0x80) : c.lower = [asciiLower c] := by
  have hlower := lower_ofNat_of_lt c.val h
  rwa [CodePoint.ofNat_val] at hlower

/-- The runs of letters outside of ASCII: their lower-case forms are outside of it, but for the
Kelvin sign. -/
theorem forms_of_mem_lowerRuns : ∀ run ∈ CodePoint.lowerRuns,
    run.2.1 < 0x80 ∨ 0x80 ≤ run.1 + run.2.2.2 ∨ run.1 = run.2.1 ∧ run.1 + run.2.2.2 = 0x6b := by
  decide +kernel

/-- Outside of ASCII no code point but the dotted capital I has a plain letter in its form. -/
theorem lower_of_le (h : 0x80 ≤ c.val) (hdotted : c.val ≠ 0x130) :
    ∃ d, c.lower = [d] ∧ ¬IsPlainLetter d := by
  unfold CodePoint.lower
  rw [if_neg hdotted]
  split
  next first last step distance hfind =>
    refine ⟨_, rfl, fun hplain => ?_⟩
    have hmem := forms_of_mem_lowerRuns _ (List.mem_of_find?_eq_some hfind)
    have hrange := List.find?_some hfind
    simp only [Bool.and_eq_true, decide_eq_true_eq] at hrange hmem
    obtain ⟨hlow, hhigh, hkelvin⟩ := hplain
    by_cases hval : (c.val + distance).toNat < 0x110000
    · rw [CodePoint.val_ofNat hval] at hlow hhigh hkelvin
      omega
    · rw [CodePoint.ofNat, dif_neg hval] at hhigh
      exact absurd (show 0xfffd ≤ 0x7a from hhigh) (by decide)
  next => exact ⟨c, rfl, fun hplain => by have := hplain.2.1; omega⟩

/-- What is written for the first code point of a text in lower case, and the rest. -/
theorem lowerAfter_cons (inWord : Bool) (c : CodePoint) (t : Text) : ∃ next,
    (IsPlainLetter (asciiLower c) ∧ lowerAfter inWord (c :: t) = asciiLower c :: lowerAfter next t) ∨
    (¬IsPlainLetter (asciiLower c) ∧
      ((∃ d, ¬IsPlainLetter d ∧ lowerAfter inWord (c :: t) = d :: lowerAfter next t) ∨
        lowerAfter inWord (c :: t) =
          CodePoint.ofNat 0x69 :: CodePoint.ofNat 0x307 :: lowerAfter next t)) := by
  refine ⟨if c.isCaseIgnorable then inWord else c.isCased, ?_⟩
  rw [lowerAfter]
  by_cases hsigma : c.val = 0x3a3
  · have hplain : ¬IsPlainLetter (asciiLower c) := by
      rw [asciiLower_of_le (by omega)]
      intro h
      have := h.2.1
      omega
    rw [if_pos hsigma]
    refine .inr ⟨hplain, .inl ⟨_, ?_, rfl⟩⟩
    split <;> decide
  · rw [if_neg hsigma]
    by_cases hascii : c.val < 0x80
    · rw [lower_of_lt hascii]
      by_cases hplain : IsPlainLetter (asciiLower c)
      · exact .inl ⟨hplain, rfl⟩
      · exact .inr ⟨hplain, .inl ⟨_, hplain, rfl⟩⟩
    · have hplain : ¬IsPlainLetter (asciiLower c) := by
        rw [asciiLower_of_le (by omega)]
        intro h
        have := h.2.1
        omega
      refine .inr ⟨hplain, ?_⟩
      by_cases hdotted : c.val = 0x130
      · right
        rw [CodePoint.lower, if_pos hdotted]
        rfl
      · obtain ⟨d, hd, hnot⟩ := lower_of_le (by omega) hdotted
        rw [hd]
        exact .inl ⟨d, hnot, rfl⟩

namespace IsPlainWord

variable {word t : Text}

theorem tail {d : CodePoint} (h : IsPlainWord (d :: word)) : IsPlainWord word := by
  refine ⟨fun e he => h.letters e (List.mem_cons_of_mem _ he), fun hlast => h.getLast? ?_⟩
  rw [List.getLast?_cons, hlast]
  rfl

/-- A plain word does not begin with what the dotted capital I is written with. -/
theorem not_prefix_dotted (h : IsPlainWord word) (hne : word ≠ []) :
    ¬word <+: CodePoint.ofNat 0x69 :: CodePoint.ofNat 0x307 :: t := by
  intro hbegins
  rcases word with _ | ⟨d, _ | ⟨e, word⟩⟩
  · exact hne rfl
  · obtain ⟨rfl, -⟩ := List.cons_prefix_cons.mp hbegins
    exact h.getLast? rfl
  · obtain ⟨-, hbegins⟩ := List.cons_prefix_cons.mp hbegins
    obtain ⟨rfl, -⟩ := List.cons_prefix_cons.mp hbegins
    have hdot := h.letters (CodePoint.ofNat 0x307) (List.mem_cons_of_mem _ List.mem_cons_self)
    exact absurd hdot (by decide)

theorem not_prefix_of_head (h : IsPlainWord word) (hne : word ≠ []) {d : CodePoint}
    (hd : ¬IsPlainLetter d) : ¬word <+: d :: t := by
  intro hbegins
  obtain ⟨e, word, rfl⟩ := List.exists_cons_of_ne_nil hne
  obtain ⟨rfl, -⟩ := List.cons_prefix_cons.mp hbegins
  exact hd (h.letters e List.mem_cons_self)

/-- The lower-case form of a text begins with a plain word where the text does, in either case. -/
theorem prefix_lowerAfter_iff (h : IsPlainWord word) (inWord : Bool) :
    word <+: lowerAfter inWord t ↔ ∃ part, part <+: t ∧ part.map asciiLower = word := by
  induction t generalizing word inWord with
  | nil =>
    rw [lowerAfter, List.prefix_nil]
    constructor
    · rintro rfl
      exact ⟨[], List.prefix_rfl, rfl⟩
    · rintro ⟨part, hpart, rfl⟩
      rw [List.prefix_nil.mp hpart]
      rfl
  | cons c t ih =>
    by_cases hne : word = []
    · subst hne
      exact ⟨fun _ => ⟨[], List.nil_prefix, rfl⟩, fun _ => List.nil_prefix⟩
    have hstart {part : Text} (hpart : part <+: c :: t) (hword : part.map asciiLower = word) :
        ∃ rest, rest <+: t ∧ word = asciiLower c :: rest.map asciiLower := by
      obtain rfl | ⟨rest, rfl, hrest⟩ := List.prefix_cons_iff.mp hpart
      · exact absurd hword.symm hne
      · exact ⟨rest, hrest, hword.symm⟩
    obtain ⟨next, ⟨-, hlower⟩ | ⟨hnot, hlower⟩⟩ := lowerAfter_cons inWord c t
    · rw [hlower]
      constructor
      · intro hbegins
        obtain ⟨d, word, rfl⟩ := List.exists_cons_of_ne_nil hne
        obtain ⟨rfl, htail⟩ := List.cons_prefix_cons.mp hbegins
        obtain ⟨part, hpart, rfl⟩ := (ih h.tail next).mp htail
        exact ⟨c :: part, List.cons_prefix_cons.mpr ⟨rfl, hpart⟩, rfl⟩
      · rintro ⟨part, hpart, hword⟩
        obtain ⟨rest, hrest, rfl⟩ := hstart hpart hword
        exact List.cons_prefix_cons.mpr ⟨rfl, (ih h.tail next).mpr ⟨rest, hrest, rfl⟩⟩
    · refine iff_of_false ?_ ?_
      · obtain ⟨d, hd, hlower⟩ | hlower := hlower <;> rw [hlower]
        · exact h.not_prefix_of_head hne hd
        · exact h.not_prefix_dotted hne
      · rintro ⟨part, hpart, hword⟩
        obtain ⟨rest, -, rfl⟩ := hstart hpart hword
        exact hnot (h.letters _ List.mem_cons_self)

theorem infix_lowerAfter_iff (h : IsPlainWord word) (hne : word ≠ []) (inWord : Bool) :
    word <:+: lowerAfter inWord t ↔ t.Spells word := by
  induction t generalizing inWord with
  | nil =>
    rw [lowerAfter, List.infix_nil]
    refine iff_of_false hne ?_
    rintro ⟨part, hpart, rfl⟩
    rw [List.infix_nil.mp hpart] at hne
    exact hne rfl
  | cons c t ih =>
    have hspells : Spells (c :: t) word ↔ word <+: lowerAfter inWord (c :: t) ∨ Spells t word := by
      rw [h.prefix_lowerAfter_iff inWord]
      simp only [Spells, List.infix_cons_iff, or_and_right, exists_or]
    rw [hspells]
    obtain ⟨next, ⟨-, hlower⟩ | ⟨-, ⟨d, -, hlower⟩ | hlower⟩⟩ := lowerAfter_cons inWord c t
    · rw [hlower, List.infix_cons_iff, ih next]
    · rw [hlower, List.infix_cons_iff, ih next]
    · have hdot : ¬word <+: CodePoint.ofNat 0x307 :: lowerAfter next t :=
        h.not_prefix_of_head hne (by decide)
      rw [hlower, List.infix_cons_iff, List.infix_cons_iff, ih next, or_iff_right hdot]

/-- The lower-case form of a text is a plain word where the text is the word, in either case. -/
theorem lowerAfter_eq_iff (h : IsPlainWord word) (inWord : Bool) :
    lowerAfter inWord t = word ↔ t.map asciiLower = word := by
  induction t generalizing word inWord with
  | nil => exact Iff.rfl
  | cons c t ih =>
    obtain ⟨next, ⟨-, hlower⟩ | ⟨hnot, hlower⟩⟩ := lowerAfter_cons inWord c t
    · rw [hlower, List.map_cons]
      cases word with
      | nil => exact iff_of_false (List.cons_ne_nil _ _) (List.cons_ne_nil _ _)
      | cons d word => rw [List.cons_eq_cons, List.cons_eq_cons, ih h.tail next]
    · refine iff_of_false ?_ ?_
      · rintro rfl
        obtain ⟨d, hd, hlower⟩ | hlower := hlower <;> rw [hlower] at h
        · exact hd (h.letters d List.mem_cons_self)
        · exact h.not_prefix_dotted (List.cons_ne_nil _ _) List.prefix_rfl
      · rintro rfl
        exact hnot (h.letters _ List.mem_cons_self)

/-- A plain word is found in the lower-case form of a text where the text spells it. -/
theorem includes_lower_iff (h : IsPlainWord word) (hne : word ≠ []) :
    t.lower.includes word = true ↔ t.Spells word := by
  rw [includes_iff, lower, h.infix_lowerAfter_iff hne]

end IsPlainWord

end Text

end DocStore
