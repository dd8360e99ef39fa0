import DocStore.Proofs.Json.Float

/-!
Numbers as numeric literals. The text of a number is one that SQL reads as a
number exactly when the number is finite; those that are not have words.
-/

namespace DocStore

/-- A row of ASCII digits. -/
def IsDigitRow (t : Text) : Prop := t ≠ [] ∧ ∀ c ∈ t, Text.isAsciiDigit c = true

/-- A point and digits, or nothing. -/
inductive IsFraction : Text → Prop where
  | none : IsFraction []
  | some {digits : Text} (h : IsDigitRow digits) : IsFraction ('.' :: digits)

/-- An `e`, perhaps a sign, and digits, or nothing. -/
inductive IsExponent : Text → Prop where
  | none : IsExponent []
  | some (sign : Text) {digits : Text} (hsign : sign = [] ∨ sign = "+" ∨ sign = "-")
    (h : IsDigitRow digits) : IsExponent ('e' :: (sign ++ digits))

/-- A numeric literal: digits, perhaps after a minus sign, with a fraction and an exponent or not. -/
inductive IsNumericLiteral : Text → Prop where
  | mk {sign whole fraction exponent : Text} (hsign : sign = [] ∨ sign = "-")
    (hwhole : IsDigitRow whole) (hfraction : IsFraction fraction)
    (hexponent : IsExponent exponent) : IsNumericLiteral (sign ++ (whole ++ (fraction ++ exponent)))

/-- The first character of a numeric literal that is no minus sign is a digit. -/
theorem IsNumericLiteral.any_find? {t : Text} (h : IsNumericLiteral t) :
    (t.find? fun c : CodePoint => c ≠ '-').any Text.isAsciiDigit = true := by
  obtain ⟨hsign, ⟨hne, hwhole⟩, _, _⟩ := h
  rename_i whole _ _
  obtain ⟨c, whole, rfl⟩ := List.exists_cons_of_ne_nil hne
  have hc := hwhole c List.mem_cons_self
  have hdash : c ≠ '-' := by
    rintro rfl
    cases hc
  rcases hsign with rfl | rfl
  · simp [hdash, hc]
  · show ((('-' : CodePoint) :: c :: _).find? _).any _ = true
    simp [hdash, hc]

theorem isDigitRow_map {cs : List Char} (hcs : Json.AreDigits cs) (hne : cs ≠ []) :
    IsDigitRow (cs.map CodePoint.ofChar) := by
  refine ⟨by simpa using hne, fun d hd => ?_⟩
  obtain ⟨c, hc, rfl⟩ := List.mem_map.mp hd
  rw [Json.isAsciiDigit_ofChar, hcs c hc]

theorem isNumericLiteral_signedText (negative : Bool) {cs ds es : List Char}
    (hcs : Json.AreDigits cs) (hne : cs ≠ []) (hds : IsFraction (ds.map CodePoint.ofChar))
    (hes : IsExponent (es.map CodePoint.ofChar)) :
    IsNumericLiteral (Json.signedText negative (cs ++ (ds ++ es))) := by
  have hsign : (if negative then ['-'] else []).map CodePoint.ofChar = [] ∨
      (if negative then ['-'] else []).map CodePoint.ofChar = "-" := by
    cases negative
    · exact .inl rfl
    · exact .inr rfl
  simp only [Json.signedText, List.map_append]
  exact .mk hsign (isDigitRow_map hcs hne) hds hes

theorem isFraction_pointText {cs : List Char} (hcs : Json.AreDigits cs) :
    IsFraction ((Json.pointText cs).map CodePoint.ofChar) := by
  unfold Json.pointText
  split
  · exact .none
  next hne => exact .some (isDigitRow_map hcs hne)

theorem isExponent_powerText {p : Option Json.Power}
    (hp : ∀ q ∈ p, Json.AreDigits q.2 ∧ q.2 ≠ []) :
    IsExponent ((Json.powerText p).map CodePoint.ofChar) := by
  cases p with
  | none => exact .none
  | some q =>
    obtain ⟨negative, size⟩ := q
    obtain ⟨hsize, hne⟩ := hp _ rfl
    cases negative
    · exact .some "+" (.inr (.inl rfl)) (isDigitRow_map hsize hne)
    · exact .some "-" (.inr (.inr rfl)) (isDigitRow_map hsize hne)

namespace Number

/-- Whether a number is finite. -/
def isFinite : Number → Bool
  | .int _ => true
  | .float x => x.isFinite

/-- The text of a number is a numeric literal exactly when the number is finite. -/
theorem isNumericLiteral_display (n : Number) :
    IsNumericLiteral n.display ↔ n.isFinite = true := by
  cases n with
  | int n =>
    refine iff_of_true ?_ rfl
    have hliteral : IsNumericLiteral
        (Json.signedText (decide (n < 0)) (Nat.toDigits 10 n.natAbs ++ ([] ++ []))) :=
      isNumericLiteral_signedText _ (.toDigits _) Nat.toDigits_ne_nil .none .none
    rw [display, Json.ofInt_eq]
    simpa using hliteral
  | float x =>
    cases x with
    | finite negative m e hcanonical =>
      refine iff_of_true ?_ rfl
      obtain ⟨d, htext, -⟩ := Json.exists_decimal_finite negative hcanonical
      show IsNumericLiteral (Binary64.finiteText negative m e)
      rw [htext, Json.Decimal.chars]
      exact isNumericLiteral_signedText _ d.isWhole.digits d.isWhole.ne_nil
        (isFraction_pointText d.areDigits) (isExponent_powerText d.isPower)
    -- the words begin with letters
    | infinite negative =>
      refine iff_of_false (fun h => ?_) (by simp [isFinite, Binary64.isFinite])
      have hdigit := h.any_find?
      cases negative <;> revert hdigit <;> decide
    | nan =>
      refine iff_of_false (fun h => ?_) (by simp [isFinite, Binary64.isFinite])
      have hdigit := h.any_find?
      revert hdigit
      decide

end Number

end DocStore
