import DocStore.Proofs.Number.Nearest

/-!
The shortest form reads back. Every candidate that is taken lies in the rounding
interval because that is tested, and when none is, seventeen digits are near
enough to the number to lie in it.
-/

namespace DocStore.Binary64

/-- A point of the grid of the multiples of a power of ten, in quarter units. -/
theorem grid_eq (d : Nat) (k : Int) :
    ((d * (10 ^ k.toNat * 2 ^ 1076) : Nat) : ℚ) / (10 ^ (-k).toNat : Nat) = d * 10 ^ k * 2 ^ 1076 := by
  rw [ten_zpow_eq]
  push_cast
  generalize (2 : ℚ) ^ 1076 = unit
  ring

theorem hit_of_tried (hit : Nat → Bool) {a b d : Nat}
    (h : (if hit a then some a else if hit b then some b else none) = some d) : hit d = true := by
  split at h
  next ha =>
    obtain rfl := Option.some.inj h
    exact ha
  next =>
    split at h
    next hb =>
      obtain rfl := Option.some.inj h
      exact hb
    next => cases h

/-- What is found on a grid lies in the interval. -/
theorem onGrid?_holds {r : Rounding} {k : Int} {d : Nat} (h : onGrid? r k = some d) :
    r.Holds (d * 10 ^ k * 2 ^ 1076) := by
  have hscale : 0 < 10 ^ (-k).toNat := Nat.pow_pos (by omega)
  have hholds : r.holds (d * (10 ^ k.toNat * 2 ^ 1076)) (10 ^ (-k).toNat) = true :=
    hit_of_tried (fun d => r.holds (d * (10 ^ k.toNat * 2 ^ 1076)) (10 ^ (-k).toNat)) h
  rw [Rounding.holds_iff r hscale, grid_eq] at hholds
  exact hholds

theorem roundDiv_bounds (n : Nat) {d : Nat} (hd : 0 < d) :
    2 * (roundDiv n d * d) ≤ 2 * n + d ∧ 2 * n ≤ 2 * (roundDiv n d * d) + d := by
  have hdiv : d * (n / d) + n % d = n := Nat.div_add_mod n d
  have hmod : n % d < d := Nat.mod_lt n hd
  unfold roundDiv
  dsimp only
  rw [Nat.mul_comm] at hdiv
  by_cases hlow : 2 * (n % d) < d
  · rw [if_pos hlow]
    omega
  · rw [if_neg hlow]
    by_cases hhigh : d < 2 * (n % d)
    · rw [if_pos hhigh, Nat.add_mul, Nat.one_mul]
      omega
    · rw [if_neg hhigh]
      rcases Nat.mod_two_eq_zero_or_one (n / d) with heven | hodd
      · rw [heven, Nat.add_zero]
        omega
      · rw [hodd, Nat.add_mul, Nat.one_mul]
        omega

/-- A grid on which a number has at least seventeen digits is fine enough for its interval. -/
theorem fine_grid {m e : Nat} (h : Canonical m e) {step : ℚ}
    (hstep : 10 ^ 16 * step ≤ (rounding m e).mid) : step < 2 * gapBelow m e ∧ step < 4 * 2 ^ e := by
  have hpower : (0 : ℚ) < 2 ^ e := by positivity
  have hmid : ((rounding m e).mid : ℚ) = 4 * m * 2 ^ e := by
    show ((4 * m * 2 ^ e : Nat) : ℚ) = _
    push_cast
    rfl
  have hm : (m : ℚ) ≤ 2 ^ 53 - 1 := by
    have := h.1
    have : ((m + 1 : Nat) : ℚ) ≤ 2 ^ 53 := by exact_mod_cast h.1
    push_cast at this
    linarith
  rw [hmid] at hstep
  have hmantissa := mul_le_mul_of_nonneg_right hm hpower.le
  refine ⟨?_, by linarith⟩
  unfold gapBelow
  split
  next hbinade =>
    rw [hbinade.1] at hstep
    push_cast at hstep ⊢
    linarith
  next =>
    push_cast
    linarith

/-- The nearest point of such a grid lies in the interval. -/
theorem roundDiv_holds {m e : Nat} (h : Canonical m e) (hm : 0 < m) {k : Int}
    (hfine : (10 : ℚ) ^ 16 * (10 ^ k * 2 ^ 1076) ≤ (rounding m e).mid) {n d : Nat}
    (hn : (n : ℚ) = (rounding m e).mid * 10 ^ (-k).toNat)
    (hd : (d : ℚ) = 10 ^ k.toNat * 2 ^ 1076) :
    (rounding m e).Holds (roundDiv n d * 10 ^ k * 2 ^ 1076) := by
  obtain ⟨hbelow, habove⟩ := fine_grid h hfine
  have hscale : (0 : ℚ) < 10 ^ (-k).toNat := by positivity
  have hpositive : 0 < d := by
    have : (0 : ℚ) < d := by
      rw [hd]
      positivity
    exact_mod_cast this
  -- the step of the grid, and what the nearest point is off by
  have hstep : (10 : ℚ) ^ k * 2 ^ 1076 * 10 ^ (-k).toNat = d := by
    rw [hd, ten_zpow_eq]
    field_simp
  rw [mul_assoc]
  generalize (10 : ℚ) ^ k * 2 ^ 1076 = step at hstep hbelow habove ⊢
  have hoff : 2 * (rounding m e).mid ≤ 2 * (roundDiv n d * step) + step ∧
      2 * (roundDiv n d * step) ≤ 2 * (rounding m e).mid + step := by
    obtain ⟨hlow, hhigh⟩ := roundDiv_bounds n hpositive
    have hlow : 2 * (roundDiv n d * d : ℚ) ≤ 2 * n + d := by exact_mod_cast hlow
    have hhigh : 2 * (n : ℚ) ≤ 2 * (roundDiv n d * d) + d := by exact_mod_cast hhigh
    rw [hn, ← hstep] at hlow hhigh
    constructor
    · refine le_of_mul_le_mul_right ?_ hscale
      linarith
    · refine le_of_mul_le_mul_right ?_ hscale
      linarith
  have hlow : ((rounding m e).low : ℚ) = (rounding m e).mid - gapBelow m e :=
    Nat.cast_sub (gapBelow_le_mul hm e)
  have hhigh : ((rounding m e).high : ℚ) = (rounding m e).mid + 2 * 2 ^ e := by
    show ((4 * m * 2 ^ e + 2 * 2 ^ e : Nat) : ℚ) = ((4 * m * 2 ^ e : Nat) : ℚ) + _
    push_cast
    rfl
  apply Rounding.Holds.of_lt
  · rw [hlow]
    linarith
  · rw [hhigh]
    linarith

/-- The leading digit counts a power of ten that is not above the number. -/
theorem leadingExponent_le {quarters : Nat} (h : 4 ≤ quarters) :
    (10 : ℚ) ^ leadingExponent quarters * 2 ^ 1076 ≤ quarters := by
  have hunit : 2 ^ 1076 ≤ quarters * 10 ^ 340 := by
    calc 2 ^ 1076 ≤ 2 ^ (33 * 34) := Nat.pow_le_pow_right (by omega) (by omega)
      _ = (2 ^ 33) ^ 34 := Nat.pow_mul ..
      _ ≤ (10 ^ 10) ^ 34 := Nat.pow_le_pow_left (by omega) 34
      _ = 10 ^ 340 := (Nat.pow_mul ..).symm
      _ ≤ quarters * 10 ^ 340 := Nat.le_mul_of_pos_left _ (by omega)
  have hpositive : 0 < quarters * 10 ^ 340 / 2 ^ 1076 :=
    Nat.div_pos hunit (Nat.two_pow_pos _)
  have hfloor : ((quarters * 10 ^ 340 / 2 ^ 1076 : Nat) : ℚ) * 2 ^ 1076 ≤ quarters * 10 ^ 340 := by
    exact_mod_cast Nat.div_mul_le_self (quarters * 10 ^ 340) (2 ^ 1076)
  obtain ⟨hleast, -⟩ := toDigits_bounds hpositive
  have hten : (0 : ℚ) < 10 ^ 340 := by positivity
  have hpower : (10 : ℚ) ^ leadingExponent quarters * 10 ^ 340 =
      10 ^ ((Nat.toDigits 10 (quarters * 10 ^ 340 / 2 ^ 1076)).length - 1 : Int) := by
    rw [leadingExponent, ← zpow_natCast, ← zpow_add₀ (by norm_num)]
    congr 1
    omega
  refine le_of_mul_le_mul_right ?_ hten
  calc (10 : ℚ) ^ leadingExponent quarters * 2 ^ 1076 * 10 ^ 340
      = 10 ^ leadingExponent quarters * 10 ^ 340 * 2 ^ 1076 := mul_right_comm ..
    _ ≤ (quarters * 10 ^ 340 / 2 ^ 1076 : Nat) * 2 ^ 1076 := by
      rw [hpower]
      exact mul_le_mul_of_nonneg_right hleast (by positivity)
    _ ≤ quarters * 10 ^ 340 := hfloor

theorem seventeen_digits {leading : Int} {x : ℚ} (h : (10 : ℚ) ^ leading * 2 ^ 1076 ≤ x) :
    (10 : ℚ) ^ 16 * (10 ^ (leading - (16 : Nat)) * 2 ^ 1076) ≤ x := by
  rw [← mul_assoc, ← zpow_natCast, ← zpow_add₀ (by norm_num), add_sub_cancel]
  exact h

theorem shortestFrom_holds {m e : Nat} (h : Canonical m e) (hm : 0 < m) {leading : Int}
    (hleading : (10 : ℚ) ^ leading * 2 ^ 1076 ≤ (rounding m e).mid) {more count : Nat}
    (hcount : more + count = 16) :
    (rounding m e).Holds ((shortestFrom (rounding m e) leading more count).1 *
      10 ^ (shortestFrom (rounding m e) leading more count).2 * 2 ^ 1076) := by
  induction more generalizing count with
  | zero =>
    obtain rfl : count = 16 := by omega
    have hnearest := fun n d =>
      roundDiv_holds (n := n) (d := d) h hm (seventeen_digits hleading)
    rw [shortestFrom]
    dsimp only
    apply hnearest
    · push_cast
      rfl
    · push_cast
      rfl
  | succ more ih =>
    rw [shortestFrom]
    cases hgrid : onGrid? (rounding m e) (leading - count) with
    | some d => exact onGrid?_holds hgrid
    | none => exact ih (by omega)

/-- The shortest form of a positive number rounds to the number. -/
theorem shortest_holds {m e : Nat} (h : Canonical m e) (hm : 0 < m) :
    (rounding m e).Holds ((shortest m e).1 * 10 ^ (shortest m e).2 * 2 ^ 1076) := by
  refine shortestFrom_holds h hm (leadingExponent_le ?_) rfl
  calc 4 ≤ 4 * m := by omega
    _ ≤ 4 * m * 2 ^ e := Nat.le_mul_of_pos_right _ (Nat.two_pow_pos e)

end DocStore.Binary64
