import DocStore.Proofs.Json.Start
import DocStore.Proofs.Number.Decimal
import DocStore.Proofs.Settings.Scalar

/-!
Which texts stand for something else. A text stands for an integer exactly when,
without the blanks around it, it is the decimal numeral of the integer; and a text
that is no word for a value, opens no list or object and is not the form of a
number stands for itself, blanks included. Version numbers, numerals with zeros in
front, doubled signs and digits of other scripts are such texts.
-/

namespace DocStore.Settings

variable {raw t : Text}

/-! ### Words -/

theorem isPlainWord_of_mem_valueWords {w : Text} (h : w ∈ valueWords) : Text.IsPlainWord w where
  letters := by
    have hletters : ∀ w ∈ valueWords, ∀ c ∈ w, Text.IsPlainLetter c := by decide
    exact hletters w h
  getLast? := by
    have hlast : ∀ w ∈ valueWords, w.getLast? ≠ some ('i' : CodePoint) := by decide
    exact hlast w h

/-- The words for values are written in either case of the ASCII letters, and in no other letters. -/
theorem lower_mem_valueWords_iff : t.lower ∈ valueWords ↔ t.map Text.asciiLower ∈ valueWords := by
  have hword {w : Text} (hw : w ∈ valueWords) : t.lower = w ↔ t.map Text.asciiLower = w :=
    (isPlainWord_of_mem_valueWords hw).lowerAfter_eq_iff false
  constructor
  · intro h
    rwa [(hword h).mp rfl]
  · intro h
    rwa [(hword h).mpr rfl]

/-! ### Texts that may be numbers -/

theorem mem_of_isDigits (h : Text.isDigits (bareDigits t) = true) {c : CodePoint} (hc : c ∈ t) :
    c = '-' ∨ c = '.' ∨ c.isDigit = true := by
  rw [Text.isDigits, Bool.and_eq_true, List.all_eq_true] at h
  rw [← List.takeWhile_append_dropWhile (p := fun c : CodePoint => decide (c = '-')) (l := t)] at hc
  obtain hc | hc := List.mem_append.mp hc
  · exact .inl (by simpa using List.mem_takeWhile_imp hc)
  · by_cases hpoint : c = '.'
    · exact .inr (.inl hpoint)
    · exact .inr (.inr (h.2 c ((List.mem_eraseP_of_neg (by simpa using hpoint)).mpr hc)))

/-- What has the digits of a number begins neither with a space nor as the text of another value. -/
theorem start_of_isDigits (h : Text.isDigits (bareDigits t) = true) :
    ∃ c u, t = c :: u ∧ Json.isSpace c = false ∧ c ∉ Json.otherMarks := by
  cases t with
  | nil => cases h
  | cons c u =>
    have hc := mem_of_isDigits h List.mem_cons_self
    have hmarks : ∀ d ∈ Json.otherMarks, d ≠ '-' ∧ d ≠ '.' ∧ d.isDigit = false := by decide
    have hspaces : ∀ d ∈ ([' ', '\t', '\n', '\r'] : List CodePoint),
        d ≠ '-' ∧ d ≠ '.' ∧ d.isDigit = false := by decide
    have hno {ds : List CodePoint} (hds : ∀ d ∈ ds, d ≠ '-' ∧ d ≠ '.' ∧ d.isDigit = false) : c ∉ ds := by
      intro hmem
      obtain ⟨hminus, hpoint, hdigit⟩ := hds c hmem
      obtain hc | hc | hc := hc
      · exact hminus hc
      · exact hpoint hc
      · rw [hdigit] at hc
        cases hc
    refine ⟨c, u, rfl, ?_, hno hmarks⟩
    simpa [Json.isSpace, and_assoc] using hno hspaces

/-- A text with the digits of a number that is not the form of one is kept, unless there are too
many digits in front. -/
theorem canonicalNumber_eq_self (h : Text.isDigits (bareDigits t) = true)
    (hnumber : ∀ v : Value, v.isNumber = true → Json.encode v ≠ some t)
    (hlimit : (Json.leadingDigits t).length ≤ Json.digitLimit) (raw : Text) :
    canonicalNumber t raw = .ok (.str raw) := by
  obtain ⟨c, u, rfl, hspace, hmark⟩ := start_of_isDigits h
  rw [canonicalNumber]
  cases hdecode : Json.decode (c :: u) with
  | ok v =>
    dsimp only
    rw [if_neg]
    intro hencode
    by_cases hv : v.isNumber = true
    · exact hnumber v hv hencode
    · obtain ⟨d, hd, hhead⟩ := Json.head?_of_encode hencode (Bool.eq_false_iff.mpr hv)
      exact hmark (Option.some.inj hhead ▸ hd)
  | error fault =>
    cases fault with
    | malformed => rfl
    | tooManyDigits => exact absurd (Json.lt_of_decode_error hspace hmark hdecode) (Nat.not_lt.mpr hlimit)

/-- What a text is taken for as a number is a number that is written back as the text. -/
theorem encode_of_canonicalNumber {v : Value} (h : canonicalNumber t raw = .ok v)
    (hv : v.isNumber = true) : Json.encode v = some t := by
  unfold canonicalNumber at h
  split at h
  next w hdecode =>
    split_ifs at h with hencode
    · cases h
      exact hencode
    · cases h
      cases hv
  next =>
    cases h
    cases hv
  next => cases h

/-! ### Integers, and texts that stand for themselves -/

/-- What stands for an integer is the text of the integer, perhaps with blanks around it. -/
theorem strip_eq_of_scalar {n : Int} (h : scalar raw = .ok (.int n)) : raw.strip = Text.ofInt n := by
  have hword : raw.strip.lower ∉ valueWords := by
    intro hmem
    obtain ⟨v, hv, heq⟩ := scalar_of_word hmem
    cases heq.symm.trans h
    simp at hv
  rw [scalar_of_no_word hword] at h
  split_ifs at h with hopens hdigits
  · -- what opens with a bracket is no integer
    split at h
    next v hdecode =>
      cases h
      obtain ⟨vs, hv⟩ | ⟨ms, hv⟩ := Json.decode_of_bracket hopens hdecode
      · cases hv
      · cases hv
    next => cases h
    next => cases h
  · have hencode := encode_of_canonicalNumber h rfl
    rw [Json.encode_int] at hencode
    exact (Option.some.inj hencode).symm
  · cases h

/-- The texts that stand for themselves: no word for a value in either case of its letters, no list
or object, and not the form in which an integer or a float is written. -/
structure IsOrdinary (t : Text) : Prop where
  word : t.map Text.asciiLower ∉ valueWords
  opens : ¬Opens t
  int : ∀ n, ¬IsDecimal t n
  float : ∀ x, Json.encode (.float x) ≠ some t

theorem IsOrdinary.ne_encode (h : IsOrdinary t) (v : Value) (hv : v.isNumber = true) :
    Json.encode v ≠ some t := by
  cases v with
  | int n =>
    rw [Json.encode_int]
    exact fun heq => h.int n (isDecimal_iff.mpr (Option.some.inj heq).symm)
  | float x => exact h.float x
  | _ => cases hv

theorem IsOrdinary.scalar_eq (h : IsOrdinary raw.strip)
    (hlimit : (Json.leadingDigits raw.strip).length ≤ Json.digitLimit) :
    scalar raw = .ok (.str raw) := by
  rw [scalar_of_no_word (mt lower_mem_valueWords_iff.mp h.word), if_neg h.opens]
  split_ifs with hdigits
  · exact canonicalNumber_eq_self hdigits h.ne_encode hlimit raw
  · rfl

example : scalar " 1.2.3" = .ok (.str " 1.2.3") ∧ scalar "007" = .ok (.str "007") ∧
    scalar "--5" = .ok (.str "--5") ∧ scalar "-0" = .ok (.str "-0") := ⟨rfl, rfl, rfl, rfl⟩

/-- A text that begins, after minus signs, with no ASCII digit is the form of no number, but for the
words for the numbers that are not finite. -/
theorem isOrdinary_of_start (hword : t.map Text.asciiLower ∉ valueWords) (hopens : ¬Opens t)
    (hstart : (t.find? fun c : CodePoint => c ≠ '-').any Text.isAsciiDigit = false)
    (hwords : t ∉ (["Infinity", "-Infinity", "NaN"] : List Text)) : IsOrdinary t := by
  have hliteral : ¬IsNumericLiteral t := by
    intro h
    rw [h.any_find?] at hstart
    cases hstart
  refine ⟨hword, hopens, fun n hn => hliteral ?_, fun x hx => ?_⟩
  · rw [isDecimal_iff.mp hn]
    exact (Number.isNumericLiteral_display (.int n)).mpr rfl
  · rw [Json.encode_float] at hx
    cases x with
    | finite negative m e h =>
      refine hliteral ?_
      rw [← Option.some.inj hx]
      exact (Number.isNumericLiteral_display (.float (.finite negative m e h))).mpr rfl
    | infinite negative =>
      refine hwords ?_
      rw [← Option.some.inj hx]
      cases negative <;> decide
    | nan =>
      refine hwords ?_
      rw [← Option.some.inj hx]
      decide

/-- The digits in front of the text of an integer are those of its size. -/
theorem leadingDigits_ofInt (n : Int) : Json.leadingDigits (Text.ofInt n) = Text.ofNat n.natAbs := by
  have hall (m : Nat) : (Text.ofNat m).takeWhile Text.isAsciiDigit = Text.ofNat m :=
    List.takeWhile_eq_self_iff.mpr (Text.isDigitRow_ofNat m).2
  cases n with
  | negSucc m => exact hall (m + 1)
  | ofNat m =>
    obtain ⟨hne, hdigits⟩ := Text.isDigitRow_ofNat m
    obtain ⟨c, t, ht⟩ := List.exists_cons_of_ne_nil hne
    have hc : c ≠ '-' := by
      rintro rfl
      exact absurd (hdigits _ (by rw [ht]; exact List.mem_cons_self)) (by decide)
    show Json.leadingDigits (Text.ofNat m) = Text.ofNat m
    rw [ht, Json.leadingDigits, if_neg hc, ← ht]
    exact hall m

/-- A text whose digits in front are few enough to be converted stands for an integer exactly when
it is, without the blanks around it, the integer's decimal numeral; and one that is no word for a
value, no list or object and not the form of a number stands for itself, blanks included. -/
theorem scalar_exact {raw : Text}
    (hlimit : (Json.leadingDigits raw.strip).length ≤ Json.digitLimit) :
    (∀ n, scalar raw = .ok (.int n) ↔ IsDecimal raw.strip n) ∧
      (IsOrdinary raw.strip → scalar raw = .ok (.str raw)) := by
  refine ⟨fun n => ?_, fun h => h.scalar_eq hlimit⟩
  rw [isDecimal_iff]
  refine ⟨strip_eq_of_scalar, fun h => ?_⟩
  rw [h, leadingDigits_ofInt, Text.ofNat, List.length_map,
    Nat.length_toDigits_le_iff (by omega) (by decide)] at hlimit
  rw [scalar_of_strip_eq_ofInt h, if_pos hlimit]

/-- Digits of another script stand for themselves, with the blanks around them; a negative numeral
with blanks around it stands for an integer. -/
theorem scalar_exact_scripts :
    let digits : Text := " \u0661\u0662 "
    let numeral : Text := "\t-12 "
    (Json.leadingDigits digits.strip).length ≤ Json.digitLimit ∧
      (Json.leadingDigits numeral.strip).length ≤ Json.digitLimit ∧
      IsOrdinary digits.strip ∧ scalar digits = .ok (.str digits) ∧
      IsDecimal numeral.strip (-12) ∧ scalar numeral = .ok (.int (-12)) := by
  intro digits numeral
  have hdigits : (Json.leadingDigits digits.strip).length ≤ Json.digitLimit := by decide
  have hnumeral : (Json.leadingDigits numeral.strip).length ≤ Json.digitLimit := by decide
  have hordinary : IsOrdinary digits.strip :=
    isOrdinary_of_start (by decide) (by decide) (by decide) (by decide)
  have hdecimal : IsDecimal numeral.strip (-12) := isDecimal_iff.mpr (by decide)
  exact ⟨hdigits, hnumeral, hordinary, (scalar_exact hdigits).2 hordinary, hdecimal,
    ((scalar_exact hnumeral).1 (-12)).mpr hdecimal⟩

end DocStore.Settings
