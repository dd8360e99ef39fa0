import DocStore.Proofs.Json.Reading
import DocStore.Proofs.Outcome

/-!
What the beginning of a text tells. A text that opens with a bracket is read as a
list or an object, the text of a value that is no number begins with a mark that
no number has, and only a text that begins with too many digits in a row is
refused for them.
-/

namespace DocStore.Json

variable {t rest : Text} {v : Value}

/-! ### Brackets -/

/-- What opens with a bracket is a list or an object. -/
theorem value_of_bracket {fuel : Nat} {c : CodePoint} (hc : c = '[' ∨ c = '\x7b')
    (h : value fuel (c :: t) = .ok (v, rest)) : (∃ vs, v = .list vs) ∨ ∃ ms, v = .object ms := by
  cases fuel with
  | zero => cases h
  | succ fuel =>
    obtain rfl | rfl := hc
    · rw [value, if_neg (by decide), if_pos rfl] at h
      split at h
      · cases h
      · split at h
        · cases h
          exact .inl ⟨[], rfl⟩
        · obtain ⟨⟨vs, t'⟩, -, ⟨⟩⟩ := exists_of_bind_ok h
          exact .inl ⟨vs, rfl⟩
    · rw [value, if_neg (by decide), if_neg (by decide), if_pos rfl] at h
      split at h
      · cases h
      · split at h
        · cases h
          exact .inr ⟨[], rfl⟩
        · obtain ⟨⟨ms, t'⟩, -, ⟨⟩⟩ := exists_of_bind_ok h
          exact .inr ⟨ms, rfl⟩

theorem decode_of_bracket (hstart : t.head? = some ('[' : CodePoint) ∨ t.head? = some ('\x7b' : CodePoint))
    (h : decode t = .ok v) : (∃ vs, v = .list vs) ∨ ∃ ms, v = .object ms := by
  obtain ⟨c, u, rfl, hc⟩ : ∃ c u, t = c :: u ∧ (c = '[' ∨ c = '\x7b') := by
    obtain hstart | hstart := hstart <;> obtain ⟨u, hu⟩ := List.head?_eq_some_iff.mp hstart
    · exact ⟨_, u, hu, .inl rfl⟩
    · exact ⟨_, u, hu, .inr rfl⟩
  have hspace : isSpace c = false := by obtain rfl | rfl := hc <;> decide
  obtain ⟨⟨w, rest⟩, hw, h⟩ := exists_of_bind_ok h
  rw [skipSpace_of_not_isSpace hspace] at hw
  dsimp only at h
  split at h
  · cases h
    exact value_of_bracket hc hw
  · cases h

/-! ### Values that are no numbers -/

/-- The marks with which the texts of values begin that are no numbers. -/
def otherMarks : List CodePoint := ['n', 't', 'f', '"', '[', '\x7b']

theorem head?_of_write {asciiOnly : Bool} (h : write (compact asciiOnly) v = some t)
    (hv : v.isNumber = false) : ∃ c ∈ otherMarks, t.head? = some c := by
  have hstart {c : CodePoint} {u : Text} (hc : c ∈ otherMarks) (ht : t = c :: u) :
      ∃ c ∈ otherMarks, t.head? = some c := ⟨c, hc, by rw [ht]; rfl⟩
  cases v with
  | null => exact hstart (c := 'n') (by decide) (Option.some.inj h).symm
  | bool b =>
    cases b
    · exact hstart (c := 'f') (by decide) (Option.some.inj h).symm
    · exact hstart (c := 't') (by decide) (Option.some.inj h).symm
  | int n => cases hv
  | float x => cases hv
  | str s => exact hstart (c := '"') (by decide) (Option.some.inj h).symm
  | list vs | tuple vs =>
    obtain ⟨ts, -, ht⟩ := Option.bind_eq_some_iff.mp h
    exact hstart (c := '[') (by decide) (Option.some.inj ht).symm
  | object ms =>
    obtain ⟨ts, -, ht⟩ := Option.bind_eq_some_iff.mp h
    exact hstart (c := '\x7b') (by decide) (Option.some.inj ht).symm
  | bytes octets => cases h
  | pattern source => cases h
  | test test => cases h

theorem head?_of_encode (h : encode v = some t) (hv : v.isNumber = false) :
    ∃ c ∈ otherMarks, t.head? = some c := by
  unfold encode at h
  split at h
  · cases h
  next hwrite =>
    split at h
    · cases h
      exact head?_of_write hwrite hv
    · exact head?_of_write h hv

/-! ### Digits in a row -/

/-- The ASCII digits that a text begins with, perhaps after a minus sign. -/
def leadingDigits : Text → Text
  | [] => []
  | c :: t => (if c = '-' then t else c :: t).takeWhile Text.isAsciiDigit

theorem length_of_wholeDigits {whole : Text} (h : wholeDigits t = some (whole, rest)) :
    whole.length ≤ (t.takeWhile Text.isAsciiDigit).length := by
  cases t with
  | nil => cases h
  | cons c t =>
    rw [wholeDigits] at h
    split at h
    next hzero =>
      subst hzero
      cases h
      rw [List.takeWhile_cons_of_pos (by decide)]
      exact Nat.succ_le_succ (Nat.zero_le _)
    next =>
      split at h
      · cases h
      next hdigit =>
        rw [spanDigits, List.span_eq_takeWhile_dropWhile] at h
        cases h
        have hc : Text.isAsciiDigit c = true := by simpa using (not_or.mp hdigit).2
        exact Nat.le_of_eq (congrArg List.length (List.takeWhile_cons_of_pos hc).symm)

/-- A number is refused for its digits when there are too many of them in front. -/
theorem lt_of_number_error {negative : Bool} (h : number negative t = .error .tooManyDigits) :
    digitLimit < (t.takeWhile Text.isAsciiDigit).length := by
  unfold number at h
  split at h
  · cases h
  next whole rest hwhole =>
    dsimp only at h
    split at h
    · split at h
      next hlong => exact Nat.lt_of_lt_of_le hlong (length_of_wholeDigits hwhole)
      · cases h
    · cases h

theorem lt_of_atom_error (h : atom t = .error .tooManyDigits) :
    digitLimit < (leadingDigits t).length := by
  unfold atom at h
  split at h
  · cases h
  next =>
    split at h
    · cases h
    next c rest =>
      rw [leadingDigits]
      split at h
      next hminus =>
        rw [if_pos hminus]
        exact lt_of_number_error h
      next hminus =>
        rw [if_neg hminus]
        exact lt_of_number_error h

/-- A text that begins as no quoted text, list or object does is refused for its digits when there
are too many of them in front. -/
theorem lt_of_decode_error {c : CodePoint} (hspace : isSpace c = false) (hc : c ∉ otherMarks)
    (h : decode (c :: t) = .error .tooManyDigits) : digitLimit < (leadingDigits (c :: t)).length := by
  simp only [otherMarks, List.mem_cons, List.not_mem_nil, or_false, not_or] at hc
  obtain ⟨-, -, -, hquote, hlist, hobject⟩ := hc
  rw [decode, skipSpace_of_not_isSpace hspace, value_atom hquote hlist hobject] at h
  cases hatom : atom (c :: t) with
  | ok found =>
    rw [hatom] at h
    dsimp only [bind, Except.bind] at h
    split at h <;> cases h
  | error fault =>
    rw [hatom] at h
    cases h
    exact lt_of_atom_error hatom

end DocStore.Json
