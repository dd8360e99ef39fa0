import DocStore.Number.Shortest
import Mathlib.Algebra.Order.Field.Rat
import Mathlib.Tactic.Linarith
import Mathlib.Tactic.Ring
import Mathlib.Tactic.Positivity
import Mathlib.Tactic.FieldSimp

/-!
Rounding to the nearest number. What lies in the rounding interval of a positive
number is rounded to it, whether it is given as a quotient of units or as a
decimal; only below a power of two, where numbers are twice as dense, does the
rounding go through the mantissa that is one too great.
-/

namespace DocStore.Binary64

/-! ### Quotients -/

theorem roundDiv_eq {n d m : Nat} (hd : 0 < d) (hlow : 2 * (m * d) ≤ 2 * n + d)
    (hhigh : 2 * n ≤ 2 * (m * d) + d)
    (hodd : m % 2 = 1 → 2 * (m * d) < 2 * n + d ∧ 2 * n < 2 * (m * d) + d) : roundDiv n d = m := by
  have hdiv : d * (n / d) + n % d = n := Nat.div_add_mod n d
  have hmod : n % d < d := Nat.mod_lt n hd
  unfold roundDiv
  generalize n / d = q at hdiv ⊢
  generalize n % d = r at hdiv hmod ⊢
  rw [← hdiv, Nat.mul_comm m d] at hlow hhigh hodd
  have hle : m ≤ q + 1 := by
    by_contra hlt
    have := Nat.mul_le_mul_left d (show q + 2 ≤ m by omega)
    rw [Nat.mul_add] at this
    omega
  have hge : q ≤ m := by
    by_contra hlt
    have := Nat.mul_le_mul_left d (show m + 1 ≤ q by omega)
    rw [Nat.mul_add] at this
    omega
  dsimp only
  rcases Nat.eq_or_lt_of_le hge with rfl | hlt
  · by_cases hhalf : 2 * r < d
    · rw [if_pos hhalf]
    · rw [if_neg hhalf, if_neg (by omega)]
      have heven : q % 2 = 0 := by omega
      omega
  · obtain rfl : m = q + 1 := by omega
    rw [Nat.mul_succ] at hlow hhigh hodd
    rw [if_neg (by omega)]
    by_cases hhalf : d < 2 * r
    · rw [if_pos hhalf]
    · rw [if_neg hhalf]
      omega

/-! ### The rounding interval -/

/-- A number of quarter units rounds to the number that the interval is about. -/
def Rounding.Holds (r : Rounding) (x : ℚ) : Prop :=
  if r.closed then (r.low : ℚ) ≤ x ∧ x ≤ r.high else (r.low : ℚ) < x ∧ x < r.high

theorem Rounding.holds_iff (r : Rounding) {n scale : Nat} (h : 0 < scale) :
    r.holds n scale = true ↔ r.Holds ((n : ℚ) / scale) := by
  have hscale : (0 : ℚ) < scale := by exact_mod_cast h
  rw [Rounding.holds, Rounding.Holds]
  cases r.closed with
  | true =>
    simp only [if_true, Bool.and_eq_true, decide_eq_true_eq]
    rw [le_div_iff₀ hscale, div_le_iff₀ hscale]
    norm_cast
  | false =>
    simp only [Bool.false_eq_true, if_false, Bool.and_eq_true, decide_eq_true_eq]
    rw [lt_div_iff₀ hscale, div_lt_iff₀ hscale]
    norm_cast

theorem Rounding.Holds.le {r : Rounding} {x : ℚ} (h : r.Holds x) : (r.low : ℚ) ≤ x ∧ x ≤ r.high := by
  unfold Rounding.Holds at h
  split at h
  · exact h
  · exact ⟨h.1.le, h.2.le⟩

theorem Rounding.Holds.of_lt {r : Rounding} {x : ℚ} (hlow : (r.low : ℚ) < x) (hhigh : x < r.high) :
    r.Holds x := by
  unfold Rounding.Holds
  split
  · exact ⟨hlow.le, hhigh.le⟩
  · exact ⟨hlow, hhigh⟩

/-- Half the distance to the next lower number, in quarter units. -/
def gapBelow (m e : Nat) : Nat := if m = 2 ^ 52 ∧ 0 < e then 2 ^ e else 2 * 2 ^ e

theorem gapBelow_le (m e : Nat) : gapBelow m e ≤ 2 * 2 ^ e := by
  unfold gapBelow
  split <;> omega

theorem gapBelow_le_mul {m : Nat} (hm : 0 < m) (e : Nat) : gapBelow m e ≤ 4 * m * 2 ^ e :=
  (gapBelow_le m e).trans (Nat.mul_le_mul_right _ (by omega))

/-- The interval as inequalities between natural numbers; its ends belong to it only when the
mantissa is even. -/
theorem rounding_bounds {m e n d : Nat} (hd : 0 < d) (hm : 0 < m)
    (hx : (rounding m e).Holds (4 * n / d)) :
    4 * (m * (d * 2 ^ e)) ≤ 4 * n + d * gapBelow m e ∧
      4 * n ≤ 4 * (m * (d * 2 ^ e)) + 2 * (d * 2 ^ e) ∧
      (m % 2 = 1 → 4 * (m * (d * 2 ^ e)) < 4 * n + d * gapBelow m e ∧
        4 * n < 4 * (m * (d * 2 ^ e)) + 2 * (d * 2 ^ e)) := by
  have hholds : (rounding m e).holds (4 * n) d = true := by
    rw [Rounding.holds_iff _ hd]
    exact_mod_cast hx
  have hgap := Nat.mul_le_mul_left d (gapBelow_le_mul hm e)
  have hlow : (rounding m e).low * d = 4 * (m * (d * 2 ^ e)) - d * gapBelow m e := by
    show (4 * m * 2 ^ e - gapBelow m e) * d = _
    rw [Nat.sub_mul]
    congr 1 <;> ring
  have hhigh : (rounding m e).high * d = 4 * (m * (d * 2 ^ e)) + 2 * (d * 2 ^ e) := by
    show (4 * m * 2 ^ e + 2 * 2 ^ e) * d = _
    ring
  have hmul : d * (4 * m * 2 ^ e) = 4 * (m * (d * 2 ^ e)) := by ring
  have hclosed : (rounding m e).closed = decide (m % 2 = 0) := rfl
  rw [Rounding.holds, hlow, hhigh, hclosed] at hholds
  by_cases heven : m % 2 = 0
  · simp only [heven, decide_true, if_true, Bool.and_eq_true, decide_eq_true_eq] at hholds
    omega
  · simp only [heven, decide_false, Bool.false_eq_true, if_false, Bool.and_eq_true,
      decide_eq_true_eq] at hholds
    omega

/-- The exponent at which a quotient has a mantissa of 53 binary digits, or the least exponent. -/
theorem exponent_eq {n d e : Nat} (hd : 0 < d) (hlow : e = 0 ∨ 2 ^ 52 * (d * 2 ^ e) ≤ n)
    (hhigh : n < 2 ^ 53 * (d * 2 ^ e)) : Nat.log2 (n / d) - 52 = e := by
  have hlt : n / d < 2 ^ (53 + e) := by
    rw [Nat.div_lt_iff_lt_mul hd, Nat.pow_add]
    calc n < 2 ^ 53 * (d * 2 ^ e) := hhigh
      _ = 2 ^ 53 * 2 ^ e * d := by ring
  rcases hlow with rfl | hlow
  · rcases Nat.eq_zero_or_pos (n / d) with hzero | hpos
    · rw [hzero, Nat.log2_zero]
    · have := (Nat.log2_lt hpos.ne').mpr hlt
      omega
  · have hle : 2 ^ (52 + e) ≤ n / d := by
      rw [Nat.le_div_iff_mul_le hd, Nat.pow_add]
      calc 2 ^ 52 * 2 ^ e * d = 2 ^ 52 * (d * 2 ^ e) := by ring
        _ ≤ n := hlow
    have hpos : n / d ≠ 0 := (Nat.lt_of_lt_of_le (Nat.two_pow_pos _) hle).ne'
    have := (Nat.log2_lt hpos).mpr hlt
    have := (Nat.le_log2 hpos).mpr hle
    omega

/-- A quotient of units that lies in the interval of a number is rounded to the number. -/
theorem ofUnits_of_holds {m e n d : Nat} (h : Canonical m e) (hm : 0 < m) (hd : 0 < d)
    (hx : (rounding m e).Holds (4 * n / d)) (negative : Bool) :
    ofUnits negative n d = .finite negative m e h := by
  obtain ⟨hlow, hhigh, hodd⟩ := rounding_bounds hd hm hx
  have hunit : 0 < d * 2 ^ e := Nat.mul_pos hd (Nat.two_pow_pos e)
  have hgap := Nat.mul_le_mul_left d (gapBelow_le m e)
  rw [Nat.mul_left_comm d 2] at hgap
  have hle := Nat.mul_le_mul_right (d * 2 ^ e) (show m ≤ 2 ^ 53 - 1 by have := h.1; omega)
  have hlt : n < 2 ^ 53 * (d * 2 ^ e) := by omega
  rw [ofUnits]
  by_cases hbinade : e = 0 ∨ 2 ^ 52 * (d * 2 ^ e) ≤ n
  · have hround : roundDiv n (d * 2 ^ e) = m := by
      refine roundDiv_eq hunit (by omega) (by omega) fun hm => ?_
      have := hodd hm
      omega
    rw [exponent_eq hd hbinade hlt, hround, if_neg (by have := h.1; omega), ofParts, dif_pos h]
  · -- the quotient is below the power of two, so its exponent is one less
    obtain ⟨he, hbelow⟩ := not_or.mp hbinade
    obtain ⟨f, rfl⟩ : ∃ f, e = f + 1 := ⟨e - 1, by omega⟩
    have hpower : m = 2 ^ 52 := by
      by_contra hne
      have hleast : 2 ^ 52 + 1 ≤ m := by
        have := h.2.2.resolve_left (by omega)
        omega
      have := Nat.mul_le_mul_right (d * 2 ^ (f + 1)) hleast
      omega
    subst hpower
    have hhalf : gapBelow (2 ^ 52) (f + 1) = 2 ^ (f + 1) := if_pos ⟨rfl, by omega⟩
    have hdouble : d * 2 ^ (f + 1) = 2 * (d * 2 ^ f) := by ring
    rw [hhalf, hdouble] at hlow
    rw [hdouble] at hbelow hunit
    have hround : roundDiv n (d * 2 ^ f) = 2 ^ 53 :=
      roundDiv_eq (by omega) (by omega) (by omega) fun hm => absurd hm (by decide)
    have hexponent : Nat.log2 (n / d) - 52 = f := exponent_eq hd (.inr (by omega)) (by omega)
    rw [hexponent, hround, if_pos rfl, ofParts, dif_pos h]

/-! ### Decimals -/

/-- A power of ten as the quotient that a decimal is rounded from. -/
theorem ten_zpow_eq (k : Int) : (10 : ℚ) ^ k = 10 ^ k.toNat / 10 ^ (-k).toNat := by
  rcases Int.le_total 0 k with h | h
  · obtain ⟨n, rfl⟩ := Int.eq_ofNat_of_zero_le h
    simp
  · obtain ⟨n, hn⟩ := Int.eq_ofNat_of_zero_le (show 0 ≤ -k by omega)
    obtain rfl : k = -(n : Int) := by omega
    simp

/-- The number of digits says between which powers of ten a number lies. -/
theorem toDigits_bounds {n : Nat} (hn : 0 < n) :
    (10 : ℚ) ^ ((Nat.toDigits 10 n).length - 1 : Int) ≤ n ∧
      (n : ℚ) < 10 ^ ((Nat.toDigits 10 n).length : Int) := by
  obtain ⟨k, hk⟩ : ∃ k, (Nat.toDigits 10 n).length = k + 1 :=
    ⟨_, (Nat.succ_pred_eq_of_pos Nat.length_toDigits_pos).symm⟩
  have hlt : n < 10 ^ (k + 1) := (Nat.length_toDigits_le_iff (by omega) (by omega)).mp hk.le
  have hle : 10 ^ k ≤ n := by
    rcases Nat.eq_zero_or_pos k with rfl | hpos
    · exact hn
    · by_contra hlt
      have := (Nat.length_toDigits_le_iff (b := 10) (by omega) hpos).mpr (Nat.lt_of_not_le hlt)
      omega
  rw [hk]
  constructor
  · have : ((k + 1 : Nat) : Int) - 1 = (k : Int) := by omega
    rw [this, zpow_natCast]
    exact_mod_cast hle
  · rw [zpow_natCast]
    exact_mod_cast hlt

theorem two_pow_lt_ten_pow {n : Nat} (h : n ≤ 1200) : (2 : ℚ) ^ n < 10 ^ 400 := by
  calc (2 : ℚ) ^ n ≤ 2 ^ (3 * 400) := pow_le_pow_right₀ (by norm_num) (by omega)
    _ = (2 ^ 3) ^ 400 := pow_mul 2 3 400
    _ < 10 ^ 400 := pow_lt_pow_left₀ (by norm_num) (by norm_num) (by norm_num)

/-- The interval lies far from zero and from infinity, on the scale of decimals. -/
theorem rounding_range {m e : Nat} (h : Canonical m e) (hm : 0 < m) {x : ℚ}
    (hx : (rounding m e).Holds x) : 1 ≤ x ∧ x < 10 ^ 400 * 2 ^ 1076 := by
  obtain ⟨hlow, hhigh⟩ := hx.le
  have hpower : 2 ^ e ≤ 2 ^ 2045 := Nat.pow_le_pow_right (by omega) h.2.1
  have hleast : 1 ≤ (rounding m e).low := by
    have := Nat.two_pow_pos e
    have := gapBelow_le m e
    have := Nat.mul_le_mul_right (2 ^ e) (show 4 ≤ 4 * m by omega)
    show 1 ≤ 4 * m * 2 ^ e - gapBelow m e
    omega
  have hgreatest : (rounding m e).high ≤ 2 ^ 55 * 2 ^ 2045 := by
    calc (rounding m e).high = (4 * m + 2) * 2 ^ e := (Nat.add_mul ..).symm
      _ ≤ 2 ^ 55 * 2 ^ 2045 := Nat.mul_le_mul (by have := h.1; omega) hpower
  constructor
  · calc (1 : ℚ) ≤ (rounding m e).low := by exact_mod_cast hleast
      _ ≤ x := hlow
  · calc x ≤ ((rounding m e).high : ℚ) := hhigh
      _ ≤ 2 ^ 55 * 2 ^ 2045 := by exact_mod_cast hgreatest
      _ = 2 ^ 1024 * 2 ^ 1076 := by rw [← pow_add, ← pow_add]
      _ < 10 ^ 400 * 2 ^ 1076 :=
        mul_lt_mul_of_pos_right (two_pow_lt_ten_pow (by omega)) (by positivity)

/-- A decimal that lies in the interval of a number is rounded to the number. -/
theorem ofDecimal_of_holds {m e digits : Nat} {exponent : Int} (h : Canonical m e) (hm : 0 < m)
    (hx : (rounding m e).Holds (digits * 10 ^ exponent * 2 ^ 1076)) (negative : Bool) :
    ofDecimal negative digits exponent = .finite negative m e h := by
  obtain ⟨hlow, hhigh⟩ := rounding_range h hm hx
  have hdigits : 0 < digits := by
    rcases Nat.eq_zero_or_pos digits with rfl | hpos
    · norm_num at hlow
    · exact hpos
  obtain ⟨hleast, hgreatest⟩ := toDigits_bounds hdigits
  have hunit : (0 : ℚ) < 2 ^ 1076 := by positivity
  have hten : (0 : ℚ) < 10 ^ exponent := zpow_pos (by norm_num) _
  have hsmall : ¬((Nat.toDigits 10 digits).length + exponent < -400) := by
    intro hlt
    have hpower : (digits : ℚ) * 10 ^ exponent < 10 ^ (-400 : Int) := by
      calc (digits : ℚ) * 10 ^ exponent
          < 10 ^ ((Nat.toDigits 10 digits).length : Int) * 10 ^ exponent :=
            mul_lt_mul_of_pos_right hgreatest hten
        _ = 10 ^ ((Nat.toDigits 10 digits).length + exponent) := (zpow_add₀ (by norm_num) _ _).symm
        _ ≤ 10 ^ (-400 : Int) := zpow_le_zpow_right₀ (by norm_num) hlt.le
    have hcontra : (digits : ℚ) * 10 ^ exponent * 2 ^ 1076 < 1 := by
      calc (digits : ℚ) * 10 ^ exponent * 2 ^ 1076
          < 10 ^ (-400 : Int) * 10 ^ 400 :=
            mul_lt_mul'' hpower (two_pow_lt_ten_pow (by omega)) (by positivity) hunit.le
        _ = 1 := by
          rw [zpow_neg, zpow_ofNat]
          exact inv_mul_cancel₀ (by positivity)
    exact absurd hlow (not_le.mpr hcontra)
  have hgreat : ¬(400 < (Nat.toDigits 10 digits).length + exponent) := by
    intro hlt
    have hpower : (10 : ℚ) ^ 400 ≤ digits * 10 ^ exponent := by
      calc (10 : ℚ) ^ 400 = 10 ^ (400 : Int) := (zpow_natCast 10 400).symm
        _ ≤ 10 ^ ((Nat.toDigits 10 digits).length - 1 + exponent) :=
            zpow_le_zpow_right₀ (by norm_num) (by omega)
        _ = 10 ^ ((Nat.toDigits 10 digits).length - 1 : Int) * 10 ^ exponent :=
            zpow_add₀ (by norm_num) _ _
        _ ≤ digits * 10 ^ exponent := mul_le_mul_of_nonneg_right hleast hten.le
    exact absurd hhigh (not_lt.mpr (mul_le_mul_of_nonneg_right hpower hunit.le))
  rw [ten_zpow_eq] at hx
  rw [ofDecimal, if_neg (by omega), if_neg hgreat]
  have hunits : (2 : ℚ) ^ 1076 = 4 * 2 ^ 1074 := by
    rw [show (1076 : Nat) = 2 + 1074 from rfl, pow_add]
    norm_num only
  rw [hunits] at hx
  by_cases hsign : 0 ≤ exponent
  · rw [if_pos hsign]
    refine ofUnits_of_holds h hm (by omega) ?_ negative
    rw [show (-exponent).toNat = 0 by omega] at hx
    convert hx using 1
    push_cast
    generalize (2 : ℚ) ^ 1074 = unit
    ring
  · rw [if_neg hsign]
    refine ofUnits_of_holds h hm (by positivity) ?_ negative
    rw [show exponent.toNat = 0 by omega] at hx
    convert hx using 1
    push_cast
    generalize (2 : ℚ) ^ 1074 = unit
    ring

end DocStore.Binary64
