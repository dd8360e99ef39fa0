import DocStore.Proofs.Number.Literal

/-!
Decimal numerals of integers. The text that an integer is written as is the one
row of digits for it that has no zero in front, after a minus sign when the
integer is negative.
-/

namespace DocStore

/-- The decimal numeral of an integer: digits without a zero in front, perhaps after a minus sign,
or a zero that has no sign. -/
inductive IsDecimal : Text → Int → Prop where
  | zero : IsDecimal "0" 0
  | positive {digits : Text} (h : IsDigitRow digits) (hhead : digits.head? ≠ some ('0' : CodePoint)) :
    IsDecimal digits (Text.digitsValue digits)
  | negative {digits : Text} (h : IsDigitRow digits) (hhead : digits.head? ≠ some ('0' : CodePoint)) :
    IsDecimal ('-' :: digits) (-(Text.digitsValue digits : Int))

namespace Text

theorem isAsciiDigit_iff {c : CodePoint} : isAsciiDigit c = true ↔ 0x30 ≤ c.val ∧ c.val ≤ 0x39 := by
  simp [isAsciiDigit]

theorem digitsValue_append_digit (digits : Text) (c : CodePoint) :
    digitsValue (digits ++ [c]) = digitsValue digits * 10 + (c.val - 0x30) := by
  rw [digitsValue, List.foldl_append]
  rfl

/-- The numeral of the number that one digit is. -/
theorem ofNat_digit {c : CodePoint} (hc : isAsciiDigit c = true) : ofNat (c.val - 0x30) = [c] := by
  obtain ⟨hlow, hhigh⟩ := isAsciiDigit_iff.mp hc
  rw [ofNat, Nat.toDigits_of_lt_base (by omega), List.map_singleton]
  congr 1
  ext
  show (Nat.digitChar (c.val - 0x30)).toNat = c.val
  rw [Nat.toNat_digitChar_of_lt_ten (by omega)]
  omega

/-- A number times ten and a digit is written as the number and the digit. -/
theorem ofNat_append_digit {n : Nat} (hn : 0 < n) {c : CodePoint} (hc : isAsciiDigit c = true) :
    ofNat (n * 10 + (c.val - 0x30)) = ofNat n ++ [c] := by
  obtain ⟨hlow, hhigh⟩ := isAsciiDigit_iff.mp hc
  rw [← ofNat_digit hc, ofNat, ofNat, ofNat, ← List.map_append, Nat.mul_comm,
    Nat.toDigits_append_toDigits (by omega) hn (by omega)]

/-- A row of digits without a zero in front is the numeral of the number that it writes. -/
theorem ofNat_digitsValue {digits : Text} (h : IsDigitRow digits)
    (hhead : digits.head? ≠ some ('0' : CodePoint)) :
    0 < digitsValue digits ∧ ofNat (digitsValue digits) = digits := by
  induction digits using List.reverseRecOn with
  | nil => exact absurd rfl h.1
  | append_singleton digits c ih =>
    have hc := h.2 c (List.mem_append_right _ List.mem_cons_self)
    have hdigits : ∀ d ∈ digits, isAsciiDigit d = true := fun d hd => h.2 d (List.mem_append_left _ hd)
    rw [digitsValue_append_digit]
    by_cases hne : digits = []
    · subst hne
      have hval : c.val ≠ 0x30 := fun heq => hhead (congrArg some (CodePoint.ext heq))
      have hlow := (isAsciiDigit_iff.mp hc).1
      refine ⟨by omega, ?_⟩
      rw [show digitsValue [] * 10 + (c.val - 0x30) = c.val - 0x30 from Nat.zero_add _]
      exact ofNat_digit hc
    · rw [List.head?_append_of_ne_nil _ hne] at hhead
      obtain ⟨hpos, hnumeral⟩ := ih ⟨hne, hdigits⟩ hhead
      exact ⟨by omega, by rw [ofNat_append_digit hpos hc, hnumeral]⟩

theorem isDigitRow_ofNat (n : Nat) : IsDigitRow (ofNat n) :=
  isDigitRow_map (.toDigits n) Nat.toDigits_ne_nil

/-- The numeral of a positive number is a row of digits without a zero in front that writes it. -/
theorem ofNat_spec {n : Nat} (hn : 0 < n) :
    IsDigitRow (ofNat n) ∧ (ofNat n).head? ≠ some ('0' : CodePoint) ∧ digitsValue (ofNat n) = n := by
  refine ⟨isDigitRow_ofNat n, ?_, ?_⟩
  · intro hzero
    rw [ofNat, List.head?_map, Option.map_eq_some_iff] at hzero
    obtain ⟨c, hc, heq⟩ := hzero
    have : c = '0' := Char.ext (UInt32.toNat_inj.mp (congrArg CodePoint.val heq))
    exact Json.head?_toDigits hn (this ▸ hc)
  · rw [ofNat, Json.digitsValue_map, Nat.ofDigitChars_toDigits (by omega) (by omega)]

end Text

/-- The numeral of an integer is the text that it is written as, and no other text. -/
theorem isDecimal_iff {t : Text} {n : Int} : IsDecimal t n ↔ t = Text.ofInt n := by
  constructor
  · intro h
    cases h with
    | zero => rfl
    | positive h hhead => exact (Text.ofNat_digitsValue h hhead).2.symm
    | @negative digits h hhead =>
      obtain ⟨hpos, hnumeral⟩ := Text.ofNat_digitsValue h hhead
      obtain ⟨m, hm⟩ : ∃ m, Text.digitsValue digits = m + 1 := ⟨_, (Nat.succ_pred hpos.ne').symm⟩
      rw [hm] at hnumeral ⊢
      exact congrArg (List.cons _) hnumeral.symm
  · rintro rfl
    obtain _ | m := n
    · rename_i m
      obtain rfl | hm := Nat.eq_zero_or_pos m
      · exact .zero
      · obtain ⟨hrow, hhead, hvalue⟩ := Text.ofNat_spec hm
        have hdecimal := IsDecimal.positive hrow hhead
        rwa [hvalue] at hdecimal
    · obtain ⟨hrow, hhead, hvalue⟩ := Text.ofNat_spec m.succ_pos
      have hdecimal := IsDecimal.negative hrow hhead
      rwa [hvalue] at hdecimal

end DocStore
