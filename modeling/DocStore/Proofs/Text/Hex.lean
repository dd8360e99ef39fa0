import DocStore.Text.Basic

/-!
Hexadecimal digits. A row of them is read back as the number that it was written
for, as far as the row is wide, and rows of one width are in the order of their
numbers, whatever stands after them.
-/

namespace DocStore.Text

-- Powers are those of the core library, whatever else is imported.
attribute [local instance (high + 1)] instPowNat

/-! ### One digit -/

theorem val_hexDigit {n : Nat} (h : n < 16) :
    (hexDigit n).val = if n < 10 then 0x30 + n else 0x57 + n := by
  rw [hexDigit]
  apply CodePoint.val_ofNat
  split <;> omega

theorem hexValue?_hexDigit {n : Nat} (h : n < 16) : hexValue? (hexDigit n) = some n := by
  rw [hexValue?, val_hexDigit h]
  by_cases hn : n < 10
  · rw [if_pos hn, if_pos (by omega)]
    congr 1
    omega
  · rw [if_neg hn, if_neg (by omega), if_pos (by omega)]
    congr 1
    omega

/-- The digits from the least to the greatest. -/
def hexDigits : Text := "0123456789abcdef"

theorem hexDigit_mem_hexDigits : ∀ n < 16, hexDigit n ∈ hexDigits := by decide

theorem mem_hexDigits_of_mem_hex {width n : Nat} {c : CodePoint} (h : c ∈ hex width n) :
    c ∈ hexDigits := by
  induction width generalizing n with
  | zero => cases h
  | succ width ih =>
    obtain h | h := List.mem_append.mp h
    · exact ih h
    · obtain rfl := List.mem_singleton.mp h
      exact hexDigit_mem_hexDigits _ (Nat.mod_lt _ (by omega))

/-! ### The order of texts -/

@[simp] theorem isLess_append (start s t : Text) : isLess (start ++ s) (start ++ t) = isLess s t := by
  induction start with
  | nil => rfl
  | cons c start ih => rw [List.cons_append, List.cons_append, isLess, if_pos rfl, ih]

theorem isLess_cons_of_lt {c d : CodePoint} (h : c.val < d.val) (s t : Text) :
    isLess (c :: s) (d :: t) = true := by
  rw [isLess, if_neg (by rintro rfl; exact Nat.lt_irrefl _ h)]
  exact decide_eq_true h

theorem val_hexDigit_lt {m n : Nat} (h : m < n) (hn : n < 16) :
    (hexDigit m).val < (hexDigit n).val := by
  rw [val_hexDigit hn, val_hexDigit (by omega)]
  split <;> split <;> omega

/-- The row of a smaller number comes first. -/
theorem isLess_hex {width m n : Nat} (h : m < n) (hn : n < 16 ^ width) (s t : Text) :
    isLess (hex width m ++ s) (hex width n ++ t) = true := by
  induction width generalizing m n s t with
  | zero => omega
  | succ width ih =>
    have hquotient : n / 16 < 16 ^ width := by
      rw [Nat.pow_succ] at hn
      omega
    rw [hex, hex, List.append_assoc, List.append_assoc]
    by_cases hlt : m / 16 < n / 16
    · exact ih hlt hquotient _ _
    · -- the digits in front are the same, so the last ones decide
      have heq : m / 16 = n / 16 := by omega
      rw [heq, isLess_append]
      exact isLess_cons_of_lt (val_hexDigit_lt (by omega) (Nat.mod_lt _ (by omega))) s t

end DocStore.Text
