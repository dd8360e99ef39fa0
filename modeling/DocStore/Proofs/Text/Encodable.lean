import DocStore.Path.Json
import DocStore.Path.TextArray
import DocStore.Proofs.Outcome
import DocStore.Proofs.Pattern.Delimited
import DocStore.Sql.Like
import DocStore.Text.Blank
import DocStore.Text.Case

/-!
Which operations on texts keep the code points that have no UTF-8 form. Cutting
and escaping bring none in; stripping, lower case, wildcards and the slashes
around an expression lose none, so what is seen of a text afterwards tells
whether the text has a UTF-8 form.
-/

namespace DocStore

namespace CodePoint

@[simp] theorem isSurrogate_ofChar (c : Char) : (ofChar c).isSurrogate = false := by
  have hval : (ofChar c).val < 0xd800 ∨ 0xe000 ≤ (ofChar c).val := by
    rcases c.valid with h | h
    · exact .inl h
    · exact .inr h.1
  simp only [isSurrogate, Bool.and_eq_false_iff, decide_eq_false_iff_not]
  omega

theorem isSurrogate_lowerRuns :
    ∀ run ∈ lowerRuns, run.2.1 < 0xd800 ∨ 0xe000 ≤ run.1 := by
  decide +kernel

/-- A surrogate is no letter. -/
theorem lower_of_isSurrogate {c : CodePoint} (hc : c.isSurrogate = true) : c.lower = [c] := by
  simp only [isSurrogate, Bool.and_eq_true, decide_eq_true_eq] at hc
  unfold lower
  rw [if_neg (by omega)]
  split
  next first last step distance hfind =>
    have hrun := isSurrogate_lowerRuns _ (List.mem_of_find?_eq_some hfind)
    have hrange := List.find?_some hfind
    simp only [Bool.and_eq_true, decide_eq_true_eq] at hrange hrun
    omega
  next => rfl

theorem isBlank_of_isSurrogate {c : CodePoint} (hc : c.isSurrogate = true) : c.isBlank = false := by
  simp only [isSurrogate, Bool.and_eq_true, decide_eq_true_eq] at hc
  have hranges : ∀ r ∈ whiteSpaceRanges, r.2 < 0xd800 := by decide
  have hwhite : c.isWhiteSpace = false := by
    refine List.any_eq_false.mpr fun r hr => ?_
    have := hranges r hr
    simp only [Bool.and_eq_true, decide_eq_true_eq]
    omega
  simp only [isBlank, hwhite, Bool.false_or, Bool.and_eq_false_iff, decide_eq_false_iff_not]
  omega

end CodePoint

namespace Text

variable {s t : Text}

theorem isEncodable_iff : t.isEncodable = true ↔ ∀ c ∈ t, c.isSurrogate = false := by
  simp [isEncodable]

/-- A text has a UTF-8 form when its surrogates stand in one that has. -/
theorem isEncodable_mono (h : ∀ c ∈ s, c.isSurrogate = true → c ∈ t) (ht : t.isEncodable = true) :
    s.isEncodable = true := by
  rw [isEncodable_iff] at ht ⊢
  intro c hc
  cases hsurrogate : c.isSurrogate with
  | false => rfl
  | true => rw [← hsurrogate, ht c (h c hc hsurrogate)]

@[simp] theorem isEncodable_map_ofChar (cs : List Char) :
    isEncodable (cs.map CodePoint.ofChar) = true := by
  simp [isEncodable]

@[simp] theorem isEncodable_ofString (s : String) : isEncodable s = true :=
  isEncodable_map_ofChar s.toList

theorem isEncodable_flatMap {α : Type} (f : α → Text) (as : List α) :
    isEncodable (as.flatMap f) = as.all fun a => isEncodable (f a) := by
  simp [isEncodable, List.all_flatMap]

theorem isEncodable_join {separator : Text} {parts : List Text}
    (hseparator : separator.isEncodable = true) (h : ∀ part ∈ parts, part.isEncodable = true) :
    (join separator parts).isEncodable = true := by
  simp only [isEncodable_iff] at *
  intro c hc
  induction parts with
  | nil => simp [join, List.intercalate] at hc
  | cons part parts ih =>
    obtain ⟨hpart, hparts⟩ := List.forall_mem_cons.mp h
    cases parts with
    | nil => exact hpart c (by simpa [join, List.intercalate] using hc)
    | cons next parts =>
      have heq : join separator (part :: next :: parts) =
          part ++ (separator ++ join separator (next :: parts)) := by
        simp [join, List.intercalate]
      rw [heq, List.mem_append, List.mem_append] at hc
      rcases hc with hc | hc | hc
      · exact hpart c hc
      · exact hseparator c hc
      · exact ih hparts hc

theorem mem_of_mem_split {mark c : CodePoint} {part : Text} (h : part ∈ t.split mark)
    (hc : c ∈ part) : c ∈ t := by
  induction t generalizing part with
  | nil =>
    obtain rfl := List.mem_singleton.mp h
    cases hc
  | cons d t ih =>
    unfold split at h
    split at h
    · obtain rfl | h := List.mem_cons.mp h
      · cases hc
      · exact List.mem_cons_of_mem _ (ih h hc)
    · split at h
      next hnil => exact absurd hnil (split_ne_nil mark t)
      next first parts hparts =>
        obtain rfl | h := List.mem_cons.mp h
        · obtain rfl | hc := List.mem_cons.mp hc
          · exact List.mem_cons_self
          · exact List.mem_cons_of_mem _ (ih (by simp [hparts]) hc)
        · exact List.mem_cons_of_mem _ (ih (by simp [hparts, h]) hc)

/-! ### What is kept -/

theorem mem_dropWhile {p : CodePoint → Bool} {c : CodePoint} (hc : p c = false) (h : c ∈ t) :
    c ∈ t.dropWhile p := by
  induction t with
  | nil => exact h
  | cons d t ih =>
    rw [List.dropWhile_cons]
    split
    next hd =>
      obtain rfl | h := List.mem_cons.mp h
      · rw [hc] at hd
        cases hd
      · exact ih h
    next => exact h

theorem mem_strip {c : CodePoint} (hc : c.isSurrogate = true) (h : c ∈ t) : c ∈ t.strip := by
  have hblank := CodePoint.isBlank_of_isSurrogate hc
  refine List.mem_reverse.mpr (mem_dropWhile hblank (List.mem_reverse.mpr ?_))
  exact mem_dropWhile hblank h

theorem mem_lowerAfter {c : CodePoint} (hc : c.isSurrogate = true) (inWord : Bool) (h : c ∈ t) :
    c ∈ lowerAfter inWord t := by
  induction t generalizing inWord with
  | nil => exact h
  | cons d t ih =>
    unfold lowerAfter
    dsimp only
    obtain rfl | h := List.mem_cons.mp h
    · have hsigma : c.val ≠ 0x3a3 := by
        simp only [CodePoint.isSurrogate, Bool.and_eq_true, decide_eq_true_eq] at hc
        omega
      rw [if_neg hsigma, CodePoint.lower_of_isSurrogate hc]
      exact List.mem_cons_self
    · split
      · exact List.mem_cons_of_mem _ (ih _ h)
      · exact List.mem_append_right _ (ih _ h)

/-- A text has a UTF-8 form when its word without blanks, in lower case, has one. -/
theorem isEncodable_of_lower_strip (h : t.strip.lower.isEncodable = true) : t.isEncodable = true :=
  isEncodable_mono (fun _ hmem hc => mem_lowerAfter hc false (mem_strip hc hmem)) h

theorem isEncodable_containing (t : Text) : (Like.containing t).isEncodable = t.isEncodable := by
  have hescape (c : CodePoint) : isEncodable (Like.escape c) = !c.isSurrogate := by
    unfold Like.escape
    split <;> simp
  rw [Like.containing, isEncodable_append, isEncodable_append, isEncodable_flatMap]
  simp only [isEncodable_ofString, hescape, Bool.true_and, Bool.and_true]
  rfl

theorem isEncodable_of_letters (h : t.all isAsciiLetter = true) : t.isEncodable = true := by
  refine isEncodable_iff.mpr fun c hc => ?_
  have hletter := List.all_eq_true.mp h c hc
  simp only [isAsciiLetter, Bool.or_eq_true, Bool.and_eq_true, decide_eq_true_eq] at hletter
  simp only [CodePoint.isSurrogate, Bool.and_eq_false_iff, decide_eq_false_iff_not]
  omega

/-- The slashes around an expression and the letters after them have a UTF-8 form. -/
theorem isEncodable_of_withoutDelimiters (h : (Pattern.withoutDelimiters t).isEncodable = true) :
    t.isEncodable = true := by
  obtain ⟨letters, hletters, ht⟩ | heq := Pattern.delimits_or_eq t
  · have hascii := isEncodable_of_letters hletters
    obtain ht | ht := ht
    · rw [ht]
      simp [h, hascii]
    · rw [ht]
      simp [h, hascii]
  · rwa [heq] at h

end Text

/-! ### Paths -/

namespace Path

variable {field t : Text}

theorem isEncodable_of_segments {keys : List Text} (h : segments field = .ok keys)
    (hfield : field.isEncodable = true) : ∀ key ∈ keys, key.isEncodable = true := by
  unfold segments at h
  split_ifs at h
  cases h
  intro key hkey
  exact Text.isEncodable_mono (fun c hc _ => Text.mem_of_mem_split hkey hc) hfield

theorem isEncodable_escapeQuotes {key : Text} (h : key.isEncodable = true) :
    (escapeQuotes key).isEncodable = true := by
  rw [escapeQuotes, Text.isEncodable_flatMap, List.all_eq_true]
  intro c hc
  have hsurrogate := Text.isEncodable_iff.mp h c hc
  split <;> simp [hsurrogate]

theorem isEncodable_leg {key : Text} (h : key.isEncodable = true) :
    (Leg.ofSegment key).text.isEncodable = true := by
  unfold Leg.ofSegment
  split_ifs
  · simp [Leg.text, h]
  · simp [Leg.text, h]
  · simp [Leg.text, isEncodable_escapeQuotes h]

theorem isEncodable_json (h : json field = .ok t) (hfield : field.isEncodable = true) :
    t.isEncodable = true := by
  obtain ⟨keys, hkeys, ⟨⟩⟩ := exists_of_bind_ok h
  rw [Text.isEncodable_append, Text.isEncodable_ofString, Text.isEncodable_flatMap, Bool.true_and,
    List.all_eq_true]
  exact fun key hkey => isEncodable_leg (isEncodable_of_segments hkeys hfield key hkey)

theorem isEncodable_textArray (h : textArray field = .ok t) (hfield : field.isEncodable = true) :
    t.isEncodable = true := by
  obtain ⟨keys, hkeys, ⟨⟩⟩ := exists_of_bind_ok h
  have helements : (Text.join "," (keys.map element)).isEncodable = true := by
    refine Text.isEncodable_join (Text.isEncodable_ofString ",") (List.forall_mem_map.mpr ?_)
    intro key hkey
    have hquotes := isEncodable_escapeQuotes (isEncodable_of_segments hkeys hfield key hkey)
    simp [element, hquotes]
  simp [helements]

end Path

end DocStore
