import DocStore.Proofs.Json.Reading
import DocStore.Proofs.Number.Shortest
import Mathlib.Data.List.TakeWhile

/-!
Floats are read back. However the shortest form is laid out, as a decimal with
a point or with an exponent, it is a numeral that stands for the same decimal,
and that decimal is rounded to the number it is the form of.
-/

namespace DocStore

namespace Binary64

/-- Digits are the ones that are kept and zeros. -/
theorem dropZeros_spec (digits : List Char) (k : Int) :
    ∃ zeros, digits = (dropZeros digits k).1 ++ List.replicate zeros '0' ∧
      (dropZeros digits k).2 = k + zeros := by
  have hsplit : digits = (digits.reverse.dropWhile (· = '0')).reverse ++
      (digits.reverse.takeWhile (· = '0')).reverse := by
    rw [← List.reverse_append, List.takeWhile_append_dropWhile, List.reverse_reverse]
  have hzeros : (digits.reverse.takeWhile (· = '0')).reverse =
      List.replicate (digits.reverse.takeWhile (· = '0')).length '0' := by
    rw [List.eq_replicate_iff]
    refine ⟨List.length_reverse, fun c hc => ?_⟩
    simpa using List.mem_takeWhile_imp (List.mem_reverse.mp hc)
  refine ⟨(digits.reverse.takeWhile (· = '0')).length, ?_, ?_⟩
  · rw [← hzeros]
    exact hsplit
  · have hlength := congrArg List.length hsplit
    rw [List.length_append, hzeros, List.length_replicate] at hlength
    simp only [dropZeros]
    omega

end Binary64

namespace Json

/-- Digits from the first that is not a zero to the last. -/
theorem exists_kept {n : Nat} (hn : 0 < n) (k : Int) :
    ∃ ds j, Binary64.dropZeros (Nat.toDigits 10 n) k = (ds, j) ∧ AreDigits ds ∧ ds ≠ [] ∧
      ds.head? ≠ some '0' ∧ (Nat.ofDigitChars 10 ds 0 : ℚ) * 10 ^ j = n * 10 ^ k := by
  obtain ⟨zeros, hsplit, hexponent⟩ := Binary64.dropZeros_spec (Nat.toDigits 10 n) k
  generalize Binary64.dropZeros (Nat.toDigits 10 n) k = kept at hsplit hexponent ⊢
  obtain ⟨ds, j⟩ := kept
  dsimp only at hsplit hexponent
  have hdigits := AreDigits.toDigits n
  have hhead := head?_toDigits hn
  have hvalue := Nat.ofDigitChars_toDigits (b := 10) (n := n) (by omega) (by omega)
  have hpositive : Nat.toDigits 10 n ≠ [] := Nat.toDigits_ne_nil
  rw [hsplit] at hdigits hhead hvalue hpositive
  have hne : ds ≠ [] := by
    rintro rfl
    cases zeros with
    | zero => exact hpositive rfl
    | succ zeros => exact hhead rfl
  refine ⟨ds, j, rfl, hdigits.mono (List.subset_append_left _ _), hne, ?_, ?_⟩
  · obtain ⟨c, cs, rfl⟩ := List.exists_cons_of_ne_nil hne
    exact hhead
  · rw [Nat.ofDigitChars_append, Nat.ofDigitChars_replicate_zero] at hvalue
    have hn : (n : ℚ) = 10 ^ zeros * Nat.ofDigitChars 10 ds 0 := by exact_mod_cast hvalue.symm
    rw [hexponent, hn, zpow_add₀ (by norm_num), zpow_natCast]
    ring

/-- The digits of an exponent, of which there are at least two. -/
theorem exists_size (exponent : Int) :
    ∃ size, (if (Nat.toDigits 10 exponent.natAbs).length < 2 then
        '0' :: Nat.toDigits 10 exponent.natAbs else Nat.toDigits 10 exponent.natAbs) = size ∧
      AreDigits size ∧ size ≠ [] ∧ Power.value (decide (exponent < 0), size) = exponent := by
  have hvalue := Nat.ofDigitChars_toDigits (b := 10) (n := exponent.natAbs) (by omega) (by omega)
  have hsign : (if exponent < 0 then -(exponent.natAbs : Int) else exponent.natAbs) = exponent := by
    split <;> omega
  refine ⟨_, rfl, ?_, ?_, ?_⟩
  · split
    · exact (AreDigits.replicate_zero 1).append (.toDigits _)
    · exact .toDigits _
  · split
    · simp
    · exact Nat.toDigits_ne_nil
  · have hsize : Nat.ofDigitChars 10 (if (Nat.toDigits 10 exponent.natAbs).length < 2 then
        '0' :: Nat.toDigits 10 exponent.natAbs else Nat.toDigits 10 exponent.natAbs) 0 =
          exponent.natAbs := by
      split
      · exact hvalue
      · exact hvalue
    simp only [Power.value, decide_eq_true_eq]
    rw [hsize]
    exact hsign

/-- However it is laid out, the shortest form is a numeral for the same decimal. -/
theorem exists_decimal {n : Nat} (hn : 0 < n) (k : Int) :
    ∃ d : Decimal, Binary64.layout n k = d.chars ∧ (d.digits : ℚ) * 10 ^ d.exponent = n * 10 ^ k := by
  obtain ⟨ds, j, hkept, hdigits, hne, hhead, hvalue⟩ := exists_kept hn k
  have hlength : 0 < ds.length := List.length_pos_iff.mpr hne
  -- the first digits are a whole part of their own
  have hwhole (p : Nat) (hp : 0 < p) : IsWhole (ds.take p) := by
    refine ⟨hdigits.mono (List.take_subset _ _), ?_, .inr ?_⟩
    · simp [hne, hp.ne']
    · rw [List.head?_take, if_neg hp.ne']
      exact hhead
  rw [← hvalue, Binary64.layout, hkept]
  dsimp only
  by_cases hscientific : j + ds.length ≤ -4 ∨ 16 < j + ds.length
  · rw [if_pos hscientific]
    obtain ⟨size, hsize, hsizeDigits, hsizeNe, hsizeValue⟩ := exists_size (j + ds.length - 1)
    refine ⟨⟨ds.take 1, ds.drop 1, some (decide (j + ds.length - 1 < 0), size), hwhole 1 (by omega),
      hdigits.mono (List.drop_subset _ _), ?_, .inr (by simp)⟩, ?_, ?_⟩
    · rintro _ ⟨⟩
      exact ⟨hsizeDigits, hsizeNe⟩
    · have hpoint : pointText (ds.drop 1) = if ds.length ≤ 1 then [] else '.' :: ds.drop 1 := by
        simp only [pointText, List.drop_eq_nil_iff]
      rw [hsize]
      simp only [Decimal.chars, hpoint, powerText, decide_eq_true_eq, List.append_assoc,
        List.cons_append, List.nil_append]
    · rw [Decimal.digits, Decimal.exponent, List.take_append_drop]
      congr 2
      simp only [Option.map_some, Option.getD_some, hsizeValue, List.length_drop]
      omega
  rw [if_neg hscientific]
  by_cases hsmall : j + ds.length ≤ 0
  · rw [if_pos hsmall]
    refine ⟨⟨['0'], List.replicate (-(j + ds.length)).toNat '0' ++ ds, none, .toDigits 0,
      (AreDigits.replicate_zero _).append hdigits, (by rintro _ ⟨⟩), .inl (by simp [hne])⟩,
      ?_, ?_⟩
    · simp [Decimal.chars, pointText, powerText, hne]
    · have hzero : Nat.ofDigitChars 10 ['0'] 0 = 0 := rfl
      rw [Decimal.digits, Decimal.exponent, Nat.ofDigitChars_append, Nat.ofDigitChars_append,
        Nat.ofDigitChars_replicate_zero, hzero, Nat.mul_zero]
      congr 2
      simp only [Option.map_none, Option.getD_none, List.length_append, List.length_replicate]
      omega
  rw [if_neg hsmall]
  by_cases hgreat : ds.length ≤ (j + ds.length).toNat
  · rw [if_pos hgreat]
    generalize hzeros : (j + ds.length).toNat - ds.length = zeros
    obtain rfl : j = zeros := by omega
    have hpadded : IsWhole (ds ++ List.replicate zeros '0') := by
      refine ⟨hdigits.append (.replicate_zero _), by simp [hne], .inr ?_⟩
      rw [List.head?_append_of_ne_nil _ hne]
      exact hhead
    refine ⟨⟨_, ['0'], none, hpadded, .replicate_zero 1, (by rintro _ ⟨⟩), .inl (by simp)⟩,
      ?_, ?_⟩
    · simp [Decimal.chars, pointText, powerText]
    · have hlast (n : Nat) : Nat.ofDigitChars 10 ['0'] n = 10 * n := rfl
      have hminus : ((none : Option Power).map Power.value).getD 0 - (['0'] : List Char).length =
          (-1 : Int) := rfl
      rw [Decimal.digits, Decimal.exponent, hminus, Nat.ofDigitChars_append,
        Nat.ofDigitChars_append, Nat.ofDigitChars_replicate_zero, hlast, zpow_neg_one, zpow_natCast]
      push_cast
      ring
  · rw [if_neg hgreat]
    refine ⟨⟨ds.take (j + ds.length).toNat, ds.drop (j + ds.length).toNat, none,
      hwhole _ (by omega), hdigits.mono (List.drop_subset _ _), (by rintro _ ⟨⟩),
      .inl ?_⟩, ?_, ?_⟩
    · rw [Ne, List.drop_eq_nil_iff]
      exact hgreat
    · have hdrop : ds.drop (j + ds.length).toNat ≠ [] := by
        rw [Ne, List.drop_eq_nil_iff]
        exact hgreat
      simp [Decimal.chars, pointText, powerText, hdrop]
    · rw [Decimal.digits, Decimal.exponent, List.take_append_drop]
      congr 2
      simp only [Option.map_none, Option.getD_none, List.length_drop]
      omega

/-- The text of a finite float is a numeral, perhaps after a minus sign, that is rounded to it. -/
theorem exists_decimal_finite (negative : Bool) {m e : Nat} (h : Canonical m e) :
    ∃ d : Decimal, Binary64.finiteText negative m e =
        signedText negative d.chars ∧
      Binary64.ofDecimal negative d.digits d.exponent = .finite negative m e h := by
  rcases Nat.eq_zero_or_pos m with rfl | hm
  · obtain rfl : e = 0 := h.2.2.resolve_right (by omega)
    refine ⟨⟨['0'], ['0'], none, .toDigits 0, .replicate_zero 1, (by rintro _ ⟨⟩),
      .inl (by simp)⟩, rfl, ?_⟩
    have hdigits : Nat.ofDigitChars 10 (['0'] ++ ['0']) 0 = 0 := rfl
    rw [Decimal.digits, hdigits, Binary64.ofDecimal, if_pos (.inl rfl), Binary64.ofParts, dif_pos h]
  · have hholds := Binary64.shortest_holds h hm
    have hdigits : 0 < (Binary64.shortest m e).1 := by
      rcases Nat.eq_zero_or_pos (Binary64.shortest m e).1 with hzero | hpos
      · have hone := (Binary64.rounding_range h hm hholds).1
        rw [hzero] at hone
        norm_num at hone
      · exact hpos
    obtain ⟨d, hchars, hvalue⟩ := exists_decimal hdigits (Binary64.shortest m e).2
    refine ⟨d, ?_, Binary64.ofDecimal_of_holds h hm (by rw [hvalue]; exact hholds) negative⟩
    rw [Binary64.finiteText, if_neg hm.ne', ← hchars]
    rfl

/-- A finite float is read back from its text. -/
theorem Reads.float {x : Binary64} (h : x.isFinite = true) :
    Reads (x.text "Infinity" "NaN") (.float x) := by
  cases x with
  | finite negative m e hcanonical =>
    obtain ⟨d, htext, hvalue⟩ := exists_decimal_finite negative hcanonical
    obtain ⟨c, cs, hc⟩ := List.exists_cons_of_ne_nil d.isWhole.ne_nil
    have hdigit := d.isWhole.digits c (by rw [hc]; exact List.mem_cons_self ..)
    have hchars : d.chars = c :: (cs ++ (pointText d.fraction ++ powerText d.power)) := by
      rw [Decimal.chars, hc]
      rfl
    rw [hchars] at htext
    rw [Binary64.text, htext]
    refine .of_number hdigit fun rest hrest => ?_
    rw [← hchars, d.number_eq hrest, hvalue]
  | infinite negative => cases h
  | nan => cases h

end Json

end DocStore
