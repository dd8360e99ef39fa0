import DocStore.Engine.Version
import DocStore.Proofs.Json.Numeral
import DocStore.Proofs.Outcome
import DocStore.Proofs.Text.Search
import Mathlib.Data.Prod.Lex

/-!
Servers that are new enough. What a server says of itself is read as the version
that it is, whatever comes after it and, for the family of servers that does so,
whatever compatible version stands before it; and versions are compared part by
part. Only a part of more digits than are converted is refused, however new.
-/

namespace DocStore

-- Powers are those of the core library, whatever else is imported.
attribute [local instance (high + 1)] instPowNat

variable {s t : Text}

/-! ### Digits -/

/-- A text goes on with no decimal digit. -/
def Text.EndsDigits (t : Text) : Prop := ∀ c ∈ t.head?, c.isDecimal = false

namespace CodePoint

theorem val_ofChar_of_isDigit {c : Char} (h : c.isDigit = true) :
    0x30 ≤ (ofChar c).val ∧ (ofChar c).val ≤ 0x39 := by
  rw [← Json.isAsciiDigit_ofChar, Text.isAsciiDigit, Bool.and_eq_true, decide_eq_true_eq,
    decide_eq_true_eq] at h
  exact h

theorem decimalValue?_of_range {c : CodePoint} (h : 0x30 ≤ c.val ∧ c.val ≤ 0x39) :
    c.decimalValue? = some (c.val - 0x30) := by
  rw [decimalValue?, decimalZeros, List.find?_cons_of_pos (by simpa using h)]
  rfl

theorem isDecimal_of_range {c : CodePoint} (h : 0x30 ≤ c.val ∧ c.val ≤ 0x39) :
    c.isDecimal = true := by
  rw [isDecimal, decimalValue?_of_range h]
  rfl

theorem isBlank_of_range {c : CodePoint} (h : 0x30 ≤ c.val ∧ c.val ≤ 0x39) :
    c.isBlank = false := by
  simp only [isBlank, isWhiteSpace, inRanges, whiteSpaceRanges, List.any_cons, List.any_nil,
    Bool.or_eq_false_iff, Bool.and_eq_false_iff, decide_eq_false_iff_not, and_true]
  omega

end CodePoint

namespace Text

theorem foldlM_decimalValue? {cs : List Char} (hcs : Json.AreDigits cs) (n : Nat) :
    (cs.map CodePoint.ofChar).foldlM (fun n c => c.decimalValue?.map (n * 10 + ·)) n =
      some (Nat.ofDigitChars 10 cs n) := by
  induction cs generalizing n with
  | nil => rfl
  | cons c cs ih =>
    obtain ⟨hc, hcs⟩ := List.forall_mem_cons.mp hcs
    rw [List.map_cons, List.foldlM_cons,
      CodePoint.decimalValue?_of_range (CodePoint.val_ofChar_of_isDigit hc), Nat.ofDigitChars_cons,
      Nat.mul_comm]
    exact ih hcs _

/-- The numeral of a number is read as the number. -/
theorem decimalValue?_ofNat (n : Nat) : decimalValue? (ofNat n) = some n := by
  have hne : (ofNat n).isEmpty = false := by simp [ofNat, Nat.toDigits_ne_nil]
  rw [decimalValue?, hne, if_neg Bool.false_ne_true, ofNat, foldlM_decimalValue? (.toDigits n),
    Nat.ofDigitChars_toDigits (by omega) (by omega)]

theorem range_of_mem_ofNat {n : Nat} {c : CodePoint} (h : c ∈ ofNat n) :
    0x30 ≤ c.val ∧ c.val ≤ 0x39 := by
  obtain ⟨d, hd, rfl⟩ := List.mem_map.mp h
  exact CodePoint.val_ofChar_of_isDigit (Json.AreDigits.toDigits n d hd)

theorem ofNat_ne_nil (n : Nat) : ofNat n ≠ [] := by simp [ofNat, Nat.toDigits_ne_nil]

theorem endsDigits_nil : EndsDigits [] := fun _ h => nomatch h

theorem endsDigits_point (t : Text) : EndsDigits ('.' :: t) := by
  rintro c ⟨⟩
  decide

end Text

namespace Version

theorem digits?_ofNat (n : Nat) (h : t.EndsDigits) :
    digits? (Text.ofNat n ++ t) = some (Text.ofNat n, t) := by
  have hall : ∀ c ∈ Text.ofNat n, c.isDecimal = true := fun c hc =>
    CodePoint.isDecimal_of_range (Text.range_of_mem_ofNat hc)
  have htake : t.takeWhile CodePoint.isDecimal = [] ∧ t.dropWhile CodePoint.isDecimal = t := by
    cases t with
    | nil => exact ⟨rfl, rfl⟩
    | cons c t => simp [h c rfl]
  obtain ⟨c, cs, hcs⟩ := List.exists_cons_of_ne_nil (Text.ofNat_ne_nil n)
  rw [digits?, List.span_eq_takeWhile_dropWhile, List.takeWhile_append_of_pos hall,
    List.dropWhile_append_of_pos hall, htake.1, htake.2, List.append_nil, hcs]

theorem pointDigits_ofNat (n : Nat) (h : t.EndsDigits) :
    pointDigits ('.' :: (Text.ofNat n ++ t)) = (Text.ofNat n, t) := by
  rw [pointDigits, if_pos rfl, digits?_ofNat n h]
  rfl

theorem find?_ofNat (n : Nat) (h : t.EndsDigits) : find? (Text.ofNat n ++ t) =
    some (Text.ofNat n, (pointDigits t).1, (pointDigits (pointDigits t).2).1) := by
  have hstart : (Text.ofNat n ++ t).dropWhile (fun c => !c.isDecimal) = Text.ofNat n ++ t := by
    obtain ⟨c, cs, hcs⟩ := List.exists_cons_of_ne_nil (Text.ofNat_ne_nil n)
    have hmem : c ∈ Text.ofNat n := by rw [hcs]; exact List.mem_cons_self
    have hc := CodePoint.isDecimal_of_range (Text.range_of_mem_ofNat hmem)
    rw [hcs, List.cons_append, List.dropWhile_cons_of_neg (by simp [hc])]
  rw [find?, hstart, digits?_ofNat n h]
  rfl

theorem label_eq (v : Version) : v.label =
    Text.ofNat v.major ++ ("." : Text) ++ Text.ofNat v.minor ++ ("." : Text) ++ Text.ofNat v.patch := by
  simp [label, toList, Text.join, List.intercalate]

theorem label_append (v : Version) (t : Text) : v.label ++ t = Text.ofNat v.major ++
    ('.' : CodePoint) :: (Text.ofNat v.minor ++ ('.' : CodePoint) :: (Text.ofNat v.patch ++ t)) := by
  simp [label_eq, Text.ofString]

/-- A version is found whatever stands after it, as long as this goes on with no digit. -/
theorem find?_label (v : Version) (h : s.EndsDigits) :
    find? (v.label ++ s) = some (Text.ofNat v.major, Text.ofNat v.minor, Text.ofNat v.patch) := by
  rw [label_append, find?_ofNat _ (Text.endsDigits_point _),
    pointDigits_ofNat _ (Text.endsDigits_point _), pointDigits_ofNat _ h]

/-! ### Parts -/

theorem length_ofNat_le_iff {n : Nat} :
    (Text.ofNat n).length ≤ Json.digitLimit ↔ n < 10 ^ Json.digitLimit := by
  rw [Text.ofNat, List.length_map, Nat.length_toDigits_le_iff (by omega) (by decide)]

theorem part_ofNat {n : Nat} (h : n < 10 ^ Json.digitLimit) : part (Text.ofNat n) = .ok n := by
  rw [part, if_neg (Nat.not_lt.mpr (length_ofNat_le_iff.mpr h)), Text.decimalValue?_ofNat]
  rfl

theorem part_ofNat_ne_ok {n m : Nat} (h : ¬n < 10 ^ Json.digitLimit) :
    part (Text.ofNat n) ≠ .ok m := by
  rw [part, if_pos (Nat.lt_of_not_le (mt length_ofNat_le_iff.mp h))]
  nofun

theorem lt_of_lt_places {n : Nat} (h : n < 10 ^ (4 : Nat)) : n < 10 ^ Json.digitLimit :=
  Nat.lt_of_lt_of_le h (Nat.pow_le_pow_right (by omega) (by decide))

/-- Each part of a version has few enough digits to be converted. -/
structure IsConverted (v : Version) : Prop where
  major : v.major < 10 ^ Json.digitLimit
  minor : v.minor < 10 ^ Json.digitLimit
  patch : v.patch < 10 ^ Json.digitLimit

theorem ofParts_ofNat {v w : Version} :
    ofParts (Text.ofNat v.major) (Text.ofNat v.minor) (Text.ofNat v.patch) = .ok w ↔
      v.IsConverted ∧ w = v := by
  constructor
  · intro h
    obtain ⟨major, hmajor, h⟩ := exists_of_bind_ok h
    obtain ⟨minor, hminor, h⟩ := exists_of_bind_ok h
    obtain ⟨patch, hpatch, ⟨⟩⟩ := exists_of_bind_ok h
    have hconverted : v.IsConverted :=
      ⟨Decidable.of_not_not fun hlong => part_ofNat_ne_ok hlong hmajor,
        Decidable.of_not_not fun hlong => part_ofNat_ne_ok hlong hminor,
        Decidable.of_not_not fun hlong => part_ofNat_ne_ok hlong hpatch⟩
    rw [part_ofNat hconverted.major] at hmajor
    rw [part_ofNat hconverted.minor] at hminor
    rw [part_ofNat hconverted.patch] at hpatch
    cases hmajor
    cases hminor
    cases hpatch
    exact ⟨hconverted, rfl⟩
  · rintro ⟨h, rfl⟩
    rw [ofParts, part_ofNat h.major, part_ofNat h.minor, part_ofNat h.patch]
    rfl

/-! ### Order -/

/-- The parts of a version in lexicographic order. -/
def order (v : Version) : ℕ ×ₗ ℕ ×ₗ ℕ := toLex (v.major, toLex (v.minor, v.patch))

theorem isBefore_iff {v w : Version} : v.isBefore w = true ↔ v.order < w.order := by
  simp only [isBefore, order, Prod.Lex.toLex_lt_toLex, Bool.or_eq_true, Bool.and_eq_true,
    decide_eq_true_eq]

theorem isBefore_eq_false_iff {v w : Version} : v.isBefore w = false ↔ w.order ≤ v.order := by
  rw [← Bool.not_eq_true, isBefore_iff, not_lt]

theorem order_le_order_iff {v w : Version} : v.order ≤ w.order ↔ v.major < w.major ∨
    v.major = w.major ∧ (v.minor < w.minor ∨ v.minor = w.minor ∧ v.patch ≤ w.patch) := by
  simp only [order, Prod.Lex.toLex_le_toLex]

/-! ### Families -/

theorem isPlainWord_mariadb : Text.IsPlainWord ("mariadb" : Text) where
  letters := by decide
  getLast? := by decide

theorem flavorOf_of_spells (h : t.Spells "mariadb") : flavorOf t = .mariadb := by
  rw [flavorOf, if_pos ((isPlainWord_mariadb.includes_lower_iff (List.cons_ne_nil _ _)).mpr h)]

theorem flavorOf_of_not_spells (h : ¬t.Spells "mariadb") : flavorOf t = .standard := by
  rw [flavorOf, if_neg fun hincludes =>
    h ((isPlainWord_mariadb.includes_lower_iff (List.cons_ne_nil _ _)).mp hincludes)]

/-! ### Digits and points -/

/-- A text of digits and points. -/
def IsNumeric (t : Text) : Prop := ∀ c ∈ t, 0x30 ≤ c.val ∧ c.val ≤ 0x39 ∨ c = '.'

namespace IsNumeric

theorem append (hs : IsNumeric s) (ht : IsNumeric t) : IsNumeric (s ++ t) :=
  List.forall_mem_append.mpr ⟨hs, ht⟩

theorem point : IsNumeric ("." : Text) := List.forall_mem_singleton.mpr (.inr rfl)

theorem ofNat (n : Nat) : IsNumeric (Text.ofNat n) := fun _ hc => .inl (Text.range_of_mem_ofNat hc)

theorem label (v : Version) : IsNumeric v.label := by
  rw [label_eq]
  exact ((((ofNat _).append point).append (ofNat _)).append point).append (ofNat _)

theorem isBlank (h : IsNumeric t) {c : CodePoint} (hc : c ∈ t) : c.isBlank = false := by
  obtain hrange | rfl := h c hc
  · exact CodePoint.isBlank_of_range hrange
  · decide

theorem strip (h : IsNumeric t) : t.strip = t := by
  by_cases hne : t = []
  · rw [hne]
    rfl
  · have htrim := Text.trim_append hne (fun c hc => h.isBlank (List.mem_of_mem_head? hc))
      (fun c hc => h.isBlank (List.mem_of_getLast? hc)) []
    rw [List.append_nil] at htrim
    exact htrim.trans (List.append_nil t)

theorem not_spells (h : IsNumeric t) : ¬t.Spells "mariadb" := by
  rintro ⟨_ | ⟨c, part⟩, hpart, hword⟩
  · cases hword
  · obtain ⟨hc, -⟩ := List.cons_eq_cons.mp hword
    obtain hrange | rfl := h c (hpart.mem List.mem_cons_self)
    · rw [Text.asciiLower, if_neg (by omega)] at hc
      rw [hc] at hrange
      exact absurd hrange (by decide)
    · exact absurd hc (by decide)

end IsNumeric

theorem label_ne_nil (v : Version) : v.label ≠ [] := by
  rw [label_eq]
  exact List.append_ne_nil_of_right_ne_nil _ (Text.ofNat_ne_nil _)

/-- A version, and what stands before it, stay when the blanks around them are trimmed. -/
theorem strip_label {start : Text} (hstart : ∀ c ∈ start.head?, c.isBlank = false) (v : Version)
    (s : Text) : (start ++ (v.label ++ s)).strip = start ++ (v.label ++ s.stripEnd) := by
  have hblank {c : CodePoint} (hc : c ∈ v.label) := (IsNumeric.label v).isBlank hc
  rw [← List.append_assoc, Text.strip, Text.trim_append, List.append_assoc]
  · rfl
  · exact List.append_ne_nil_of_right_ne_nil _ (label_ne_nil v)
  · intro c hc
    cases start with
    | nil => exact hblank (List.mem_of_mem_head? hc)
    | cons d start => exact hstart c hc
  · intro c hc
    rw [List.getLast?_append_of_ne_nil _ (label_ne_nil v)] at hc
    exact hblank (List.mem_of_getLast? hc)

theorem endsDigits_stripEnd (h : s.EndsDigits) : s.stripEnd.EndsDigits := by
  obtain ⟨rest, hrest⟩ := Text.trimEnd_prefix CodePoint.isBlank s
  intro c hc
  refine h c ?_
  rw [← hrest]
  exact List.mem_head?_append_of_mem_head? hc

end Version

namespace Engine

open Version

variable {e : Engine} {raw : Text}

/-- A server is accepted when the version that is found in its words can be converted and is not
before the least one. -/
theorem checkVersion_eq_ok_iff {flavor : Flavor} {major minor patch : Text} (hne : raw ≠ [])
    (hflavor : flavorOf raw = flavor)
    (hfind : find? (withoutCompatible flavor raw.strip) = some (major, minor, patch)) :
    e.checkVersion raw = .ok () ↔
      ∃ v, ofParts major minor patch = .ok v ∧ (e.leastVersion flavor).order ≤ v.order := by
  have hempty : raw.isEmpty = false := List.isEmpty_eq_false_iff.mpr hne
  have hparse : parse raw = (ofParts major minor patch).map (flavor, ·) := by
    rw [parse, hempty, if_neg Bool.false_ne_true, hflavor]
    simp only [hfind]
  rw [checkVersion, hparse]
  cases ofParts major minor patch with
  | error fault => simp [Except.map]
  | ok v =>
    simp only [Except.map, Except.ok.injEq, exists_eq_left', ← isBefore_eq_false_iff]
    cases v.isBefore (e.leastVersion flavor) <;> simp

/-- A version is read as it is, whatever comes after it and whatever the family of the server leaves
out before it. -/
theorem checkVersion_append_label {flavor : Flavor} (start : Text) {v : Version} (hs : s.EndsDigits)
    (hstart : ∀ c ∈ start.head?, c.isBlank = false)
    (hflavor : flavorOf (start ++ (v.label ++ s)) = flavor)
    (hwithout : withoutCompatible flavor (start ++ (v.label ++ s.stripEnd)) = v.label ++ s.stripEnd) :
    e.checkVersion (start ++ (v.label ++ s)) = .ok () ↔
      v.IsConverted ∧ (e.leastVersion flavor).order ≤ v.order := by
  have hne : start ++ (v.label ++ s) ≠ [] :=
    List.append_ne_nil_of_right_ne_nil _ (List.append_ne_nil_of_left_ne_nil (label_ne_nil v) _)
  have hfind : find? (withoutCompatible flavor (start ++ (v.label ++ s)).strip) =
      some (Text.ofNat v.major, Text.ofNat v.minor, Text.ofNat v.patch) := by
    rw [strip_label hstart, hwithout, find?_label v (endsDigits_stripEnd hs)]
  rw [checkVersion_eq_ok_iff hne hflavor hfind]
  simp only [ofParts_ofNat]
  constructor
  · rintro ⟨w, ⟨hconverted, rfl⟩, hle⟩
    exact ⟨hconverted, hle⟩
  · rintro ⟨hconverted, hle⟩
    exact ⟨v, ⟨hconverted, rfl⟩, hle⟩

/-- A server of the standard family. -/
theorem checkVersion_standard {v : Version} (hs : s.EndsDigits)
    (hwords : ¬Text.Spells (v.label ++ s) "mariadb") :
    e.checkVersion (v.label ++ s) = .ok () ↔
      v.IsConverted ∧ (e.leastVersion .standard).order ≤ v.order :=
  checkVersion_append_label [] hs nofun (flavorOf_of_not_spells hwords) rfl

theorem spells_append (h : s.Spells t) (start : Text) : (start ++ s).Spells t := by
  obtain ⟨part, hpart, hword⟩ := h
  exact ⟨part, hpart.trans (List.suffix_append start s).isInfix, hword⟩

/-- A server of the other family that puts the compatible version in front. -/
theorem checkVersion_compatible {v : Version} (hs : s.EndsDigits) (hwords : s.Spells "mariadb") :
    e.checkVersion ("5.5.5-" ++ (v.label ++ s)) = .ok () ↔
      v.IsConverted ∧ (e.leastVersion .mariadb).order ≤ v.order := by
  refine checkVersion_append_label _ hs ?_ (flavorOf_of_spells ?_) ?_
  · rintro c ⟨⟩
    decide
  · exact spells_append (spells_append hwords _) _
  · rw [withoutCompatible, Text.after?_append]
    rfl

/-- A server of the other family that tells its version alone. -/
theorem checkVersion_mariadb {v : Version} (hs : s.EndsDigits) (hwords : s.Spells "mariadb")
    (halone : ¬("5.5.5-" : Text) <+: v.label ++ s) :
    e.checkVersion (v.label ++ s) = .ok () ↔
      v.IsConverted ∧ (e.leastVersion .mariadb).order ≤ v.order := by
  refine checkVersion_append_label [] hs nofun
    (flavorOf_of_spells (spells_append hwords _)) ?_
  rw [List.nil_append, withoutCompatible]
  cases hafter : (v.label ++ s.stripEnd).after? "5.5.5-" with
  | none => rfl
  | some rest =>
    have hcompatible : ("5.5.5-" : Text) <+: v.label ++ s.stripEnd :=
      ⟨rest, (Text.after?_eq_some_iff.mp hafter).symm⟩
    refine absurd (hcompatible.trans ?_) halone
    exact (List.prefix_append_right_inj _).mpr (Text.trimEnd_prefix _ s)

/-- What is said of a rejected server, whatever it said of itself. -/
theorem report_of_checkVersion_error {fault : SetupFault} (h : e.checkVersion raw = .error fault) :
    fault.report.family = .configuration ∧
      fault.report.detail.code = ("DB_SERVER_VERSION_UNSUPPORTED" : Text) := by
  unfold checkVersion at h
  split at h
  · cases h
    exact ⟨rfl, rfl⟩
  · dsimp only at h
    split at h
    · cases h
      exact ⟨rfl, rfl⟩
    · cases h

/-! ### Servers that tell one number -/

theorem numeral_natCast {n : Nat} (h : n < 10 ^ Json.digitLimit) :
    numeral n = .ok (Text.ofNat n) := by
  rw [numeral, Int.natAbs_natCast, if_neg (Nat.not_lt.mpr (length_ofNat_le_iff.mpr h))]
  rfl

/-- A number of more digits than are converted has no words. -/
theorem ofServerNumber_of_long {n : Nat} (h : 10000 * 10 ^ Json.digitLimit ≤ n) :
    ofServerNumber n = .error (.badValue (tooLong [])) := by
  have hmajor : (n : Int).fdiv 10000 = (n / 10000 : Nat) := by
    rw [Int.fdiv_eq_ediv_of_nonneg _ (by omega)]
    rfl
  have hlong : 10 ^ Json.digitLimit ≤ n / 10000 :=
    (Nat.le_div_iff_mul_le (by omega)).mpr (by rwa [Nat.mul_comm])
  have hnumeral : numeral (n / 10000 : Nat) = .error (.badValue (tooLong [])) := by
    rw [numeral, Int.natAbs_natCast, if_pos]
    exact Nat.lt_of_not_le (mt length_ofNat_le_iff.mp (Nat.not_lt.mpr hlong))
  rw [ofServerNumber, hmajor, hnumeral]
  exact ite_self _

/-- The words for a number that is not negative, by its decimal places. -/
theorem ofServerNumber_natCast {n : Nat} (h : n < 10000 * 10 ^ Json.digitLimit) :
    ofServerNumber n = .ok (if 10 ≤ n / 10000 then
      Text.ofNat (n / 10000) ++ ('.' : CodePoint) :: Text.ofNat (n % 10000)
      else (⟨n / 10000, n / 100 % 100, n % 100⟩ : Version).label) := by
  have hmajor : (n : Int).fdiv 10000 = (n / 10000 : Nat) := by
    rw [Int.fdiv_eq_ediv_of_nonneg _ (by omega)]
    rfl
  have hminor : ((n : Int).fdiv 100).fmod 100 = (n / 100 % 100 : Nat) := by
    rw [Int.fdiv_eq_ediv_of_nonneg _ (by omega), Int.fmod_eq_emod_of_nonneg _ (by omega)]
    rfl
  have hhundreds : (n : Int).fmod 100 = (n % 100 : Nat) := by
    rw [Int.fmod_eq_emod_of_nonneg _ (by omega)]
    rfl
  have hrest : (n : Int).fmod 10000 = (n % 10000 : Nat) := by
    rw [Int.fmod_eq_emod_of_nonneg _ (by omega)]
    rfl
  have hnumeral : numeral (n / 10000 : Nat) = .ok (Text.ofNat (n / 10000)) :=
    numeral_natCast (Nat.div_lt_of_lt_mul h)
  rw [ofServerNumber, hmajor, hnumeral, hminor, hrest, hhundreds]
  by_cases hten : 10 ≤ n / 10000
  · have hwords : Text.ofNat (n / 10000) ++ ("." : Text) ++ Text.ofNat (n % 10000) =
        Text.ofNat (n / 10000) ++ ('.' : CodePoint) :: Text.ofNat (n % 10000) :=
      List.append_assoc ..
    rw [if_pos hten, if_pos (by omega), ← hwords]
    rfl
  · rw [if_neg hten, if_neg (by omega), label_eq]
    rfl

/-- A server that tells one number is accepted from the number of the least version on. -/
theorem checkVersion_ofServerNumber {n : Nat} (h : n < 10000 * 10 ^ Json.digitLimit) :
    ∃ raw, ofServerNumber n = .ok raw ∧ (Engine.pgsql.checkVersion raw = .ok () ↔ 90500 ≤ n) := by
  have hplaces {m : Nat} (hm : m < 10000) : m < 10 ^ Json.digitLimit := lt_of_lt_places hm
  refine ⟨_, ofServerNumber_natCast h, ?_⟩
  by_cases hten : 10 ≤ n / 10000
  · rw [if_pos hten]
    have hnumeric : IsNumeric (Text.ofNat (n / 10000) ++ ('.' : CodePoint) :: Text.ofNat (n % 10000)) :=
      (IsNumeric.ofNat _).append (IsNumeric.point.append (.ofNat _))
    have hne := List.append_ne_nil_of_left_ne_nil (Text.ofNat_ne_nil (n / 10000))
      (('.' : CodePoint) :: Text.ofNat (n % 10000))
    have hpoint := pointDigits_ofNat (n % 10000) Text.endsDigits_nil
    rw [List.append_nil] at hpoint
    have hfind := find?_ofNat (n / 10000) (Text.endsDigits_point (Text.ofNat (n % 10000)))
    rw [hpoint, ← hnumeric.strip] at hfind
    have hparts : ofParts (Text.ofNat (n / 10000)) (Text.ofNat (n % 10000)) [] =
        .ok ⟨n / 10000, n % 10000, 0⟩ := by
      rw [ofParts, part_ofNat (Nat.div_lt_of_lt_mul h), part_ofNat (hplaces (by omega))]
      rfl
    have hleast : (Engine.pgsql.leastVersion .standard).order ≤
        (⟨n / 10000, n % 10000, 0⟩ : Version).order := by
      rw [order_le_order_iff]
      left
      show 9 < n / 10000
      omega
    rw [checkVersion_eq_ok_iff hne (flavorOf_of_not_spells hnumeric.not_spells) hfind]
    exact iff_of_true ⟨_, hparts, hleast⟩ (by omega)
  · rw [if_neg hten]
    have hlabel := (IsNumeric.label ⟨n / 10000, n / 100 % 100, n % 100⟩).not_spells
    rw [← List.append_nil (label _)] at hlabel ⊢
    have hconverted : IsConverted ⟨n / 10000, n / 100 % 100, n % 100⟩ :=
      ⟨hplaces (by show n / 10000 < _; omega), hplaces (by show n / 100 % 100 < _; omega),
        hplaces (by show n % 100 < _; omega)⟩
    rw [checkVersion_standard Text.endsDigits_nil hlabel, and_iff_right hconverted, order_le_order_iff]
    show 9 < n / 10000 ∨ 9 = n / 10000 ∧ (5 < n / 100 % 100 ∨ 5 = n / 100 % 100 ∧ 0 ≤ n % 100) ↔ _
    omega

/-- A server that is new enough is accepted, and no other one: by the number that it tells, or by its
version in lexicographic order, with whatever stands after it and the compatible version before it. A
number of more digits than are converted is none. A rejection has its own code. -/
theorem checkVersion_gate :
    (∀ n : Nat, n < 10000 * 10 ^ Json.digitLimit → ∃ raw, ofServerNumber n = .ok raw ∧
      (Engine.pgsql.checkVersion raw = .ok () ↔ 90500 ≤ n)) ∧
    (∀ n : Nat, 10000 * 10 ^ Json.digitLimit ≤ n →
      ofServerNumber n = .error (.badValue (tooLong []))) ∧
    (∀ (v : Version) (s : Text), s.EndsDigits → ¬Text.Spells (v.label ++ s) "mariadb" →
      (Engine.mysql.checkVersion (v.label ++ s) = .ok () ↔
        v.IsConverted ∧ toLex (5, toLex (7, 9)) ≤ v.order)) ∧
    (∀ (v : Version) (s : Text), s.EndsDigits → s.Spells "mariadb" →
      (Engine.mysql.checkVersion ("5.5.5-" ++ (v.label ++ s)) = .ok () ↔
        v.IsConverted ∧ toLex (10, toLex (2, 6)) ≤ v.order) ∧
      (¬("5.5.5-" : Text) <+: v.label ++ s →
        (Engine.mysql.checkVersion (v.label ++ s) = .ok () ↔
          v.IsConverted ∧ toLex (10, toLex (2, 6)) ≤ v.order))) ∧
    ∀ (e : Engine) (raw : Text) (fault : SetupFault), e.checkVersion raw = .error fault →
      fault.report.family = .configuration ∧
        fault.report.detail.code = ("DB_SERVER_VERSION_UNSUPPORTED" : Text) := by
  refine ⟨fun n => checkVersion_ofServerNumber, fun n => ofServerNumber_of_long,
    fun v s => checkVersion_standard, fun v s hs hwords => ?_,
    fun e raw fault => report_of_checkVersion_error⟩
  exact ⟨checkVersion_compatible hs hwords, checkVersion_mariadb hs hwords⟩

/-- The least versions themselves. -/
theorem checkVersion_gate_least :
    90500 < 10000 * 10 ^ Json.digitLimit ∧
    (∃ raw, ofServerNumber (90500 : Nat) = .ok raw ∧ Engine.pgsql.checkVersion raw = .ok ()) ∧
    ("-log" : Text).EndsDigits ∧ ¬Text.Spells ((⟨5, 7, 9⟩ : Version).label ++ "-log") "mariadb" ∧
    Engine.mysql.checkVersion ((⟨5, 7, 9⟩ : Version).label ++ "-log") = .ok () ∧
    ("-MariaDB" : Text).EndsDigits ∧ ("-MariaDB" : Text).Spells "mariadb" ∧
    ¬("5.5.5-" : Text) <+: (⟨10, 2, 6⟩ : Version).label ++ "-MariaDB" ∧
    Engine.mysql.checkVersion ("5.5.5-" ++ ((⟨10, 2, 6⟩ : Version).label ++ "-MariaDB")) = .ok () ∧
    Engine.mysql.checkVersion ((⟨10, 2, 6⟩ : Version).label ++ "-MariaDB") = .ok () := by
  have hplaces : 90500 < 10000 * 10 ^ Json.digitLimit :=
    Nat.lt_of_lt_of_le (show 90500 < 10000 * 10 ^ (1 : Nat) by decide)
      (Nat.mul_le_mul_left _ (Nat.pow_le_pow_right (by decide) (by decide)))
  have hconverted : IsConverted ⟨5, 7, 9⟩ ∧ IsConverted ⟨10, 2, 6⟩ := by
    constructor <;> constructor <;> exact lt_of_lt_places (by decide)
  have hlog : ("-log" : Text).EndsDigits := by rintro c ⟨⟩; decide
  have hwords : ¬Text.Spells ((⟨5, 7, 9⟩ : Version).label ++ "-log") "mariadb" :=
    mt (isPlainWord_mariadb.includes_lower_iff (List.cons_ne_nil _ _)).mpr (by decide +kernel)
  have hfork : ("-MariaDB" : Text).EndsDigits := by rintro c ⟨⟩; decide
  have hspells : ("-MariaDB" : Text).Spells "mariadb" :=
    ⟨"MariaDB", (List.suffix_cons _ _).isInfix, by decide⟩
  have halone : ¬("5.5.5-" : Text) <+: (⟨10, 2, 6⟩ : Version).label ++ "-MariaDB" := by
    decide +kernel
  obtain ⟨hnumber, -, hstandard, hmariadb, -⟩ := checkVersion_gate
  obtain ⟨raw, hraw, hpgsql⟩ := hnumber 90500 hplaces
  obtain ⟨hcompatible, hplain⟩ := hmariadb ⟨10, 2, 6⟩ "-MariaDB" hfork hspells
  exact ⟨hplaces, ⟨raw, hraw, hpgsql.mpr le_rfl⟩, hlog, hwords,
    (hstandard ⟨5, 7, 9⟩ "-log" hlog hwords).mpr ⟨hconverted.1, le_rfl⟩, hfork, hspells, halone,
    hcompatible.mpr ⟨hconverted.2, le_rfl⟩, (hplain halone).mpr ⟨hconverted.2, le_rfl⟩⟩

/-- A server may be refused for the many digits of a part, although it is newer than the least
version. -/
theorem not_checkVersion_of_long :
    ¬∀ (v : Version) (s : Text), s.EndsDigits → ¬Text.Spells (v.label ++ s) "mariadb" →
      (Engine.mysql.checkVersion (v.label ++ s) = .ok () ↔ toLex (5, toLex (7, 9)) ≤ v.order) := by
  intro hall
  have hwords (v : Version) : ¬Text.Spells (v.label ++ []) "mariadb" := by
    rw [List.append_nil]
    exact (IsNumeric.label v).not_spells
  let long : Version := ⟨10 ^ Json.digitLimit, 0, 0⟩
  have hnewer : toLex (5, toLex (7, 9)) ≤ long.order :=
    order_le_order_iff (v := ⟨5, 7, 9⟩).mpr (.inl (lt_of_lt_places (by decide)))
  have haccepted := (hall long [] Text.endsDigits_nil (hwords long)).mpr hnewer
  have hconverted := ((checkVersion_standard Text.endsDigits_nil (hwords long)).mp haccepted).1
  exact absurd hconverted.major (Nat.lt_irrefl _)

end Engine

end DocStore
