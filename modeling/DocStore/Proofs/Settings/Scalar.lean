import DocStore.Proofs.Json.RoundTrip
import DocStore.Proofs.Text.Search
import DocStore.Settings.Scalar
import Mathlib.Tactic.IntervalCases

/-!
Settings that are numerals. A text is taken for a word, for JSON that opens with a
bracket, for a number, or for itself. The text of an integer, with blanks around
it or not, stands for the integer, and is refused, instead of standing for itself,
when it has more digits than are read. Nothing else in a text makes it be refused.
-/

namespace DocStore.Settings

variable {raw : Text}

/-! ### What a text is taken for -/

/-- The words that stand for values. -/
def valueWords : List Text := ["true", "false", "null", "none"]

/-- A text that opens a list or an object. -/
def Opens (t : Text) : Prop := t.head? = some ('[' : CodePoint) ∨ t.head? = some ('\x7b' : CodePoint)

instance (t : Text) : Decidable (Opens t) := instDecidableOr

theorem opens_iff {t : Text} : (t.startsWith "\x7b" || t.startsWith "[") = true ↔ Opens t := by
  have hstart (c : CodePoint) : t.startsWith [c] = true ↔ t.head? = some c := by
    rw [Text.startsWith_iff]
    cases t with
    | nil => simp
    | cons d t => simp [List.cons_prefix_cons, eq_comm]
  rw [Bool.or_eq_true, or_comm]
  exact or_congr (hstart '[') (hstart '\x7b')

theorem isWord_iff {t : Text} {words : List Text} : isWord t words = true ↔ t.lower ∈ words :=
  decide_eq_true_iff

/-- A word for a value stands for a truth value or for null. -/
theorem scalar_of_word (h : raw.strip.lower ∈ valueWords) :
    ∃ v ∈ [Value.bool true, .bool false, .null], scalar raw = .ok v := by
  unfold scalar
  dsimp only
  by_cases htrue : isWord raw.strip ["true"] = true
  · rw [if_pos htrue]
    exact ⟨_, List.mem_cons_self, rfl⟩
  by_cases hfalse : isWord raw.strip ["false"] = true
  · rw [if_neg htrue, if_pos hfalse]
    exact ⟨_, List.mem_cons_of_mem _ List.mem_cons_self, rfl⟩
  have hnull : isWord raw.strip ["null", "none"] = true := by
    rw [isWord_iff] at htrue hfalse ⊢
    obtain h | h := List.mem_cons.mp h
    · exact absurd (List.mem_singleton.mpr h) htrue
    obtain h | h := List.mem_cons.mp h
    · exact absurd (List.mem_singleton.mpr h) hfalse
    exact h
  rw [if_neg htrue, if_neg hfalse, if_pos hnull]
  exact ⟨_, List.mem_cons_of_mem _ (List.mem_cons_of_mem _ List.mem_cons_self), rfl⟩

/-- What is no word for a value is taken for JSON when it opens a list or an object, for a number
when it has the digits of one, and for itself otherwise. -/
theorem scalar_of_no_word (h : raw.strip.lower ∉ valueWords) :
    scalar raw = if Opens raw.strip then
        match Json.decode raw.strip with
        | .ok v => .ok v
        | .error .malformed => .ok (.str raw)
        | .error fault => .error fault
      else if Text.isDigits (bareDigits raw.strip) then canonicalNumber raw.strip raw
      else .ok (.str raw) := by
  have hno {words : List Text} (hwords : words ⊆ valueWords) : ¬isWord raw.strip words = true :=
    fun hmem => h (hwords (isWord_iff.mp hmem))
  unfold scalar
  dsimp only
  rw [if_neg (hno (by decide)), if_neg (hno (by decide)), if_neg (hno (by decide))]
  exact if_congr opens_iff rfl rfl

/-- No text is refused but for an integer with too many digits in it. -/
theorem decode_of_scalar_error {fault : Json.ReadFault} (h : scalar raw = .error fault) :
    fault = .tooManyDigits ∧ Json.decode raw.strip = .error .tooManyDigits := by
  by_cases hword : raw.strip.lower ∈ valueWords
  · obtain ⟨v, -, hv⟩ := scalar_of_word hword
    rw [hv] at h
    cases h
  rw [scalar_of_no_word hword, canonicalNumber] at h
  cases hdecode : Json.decode raw.strip with
  | ok v =>
    rw [hdecode] at h
    split_ifs at h
  | error fault' =>
    rw [hdecode] at h
    cases fault' with
    | malformed => split_ifs at h
    | tooManyDigits =>
      split_ifs at h <;> cases h <;> exact ⟨rfl, rfl⟩

/-! ### Integers -/

/-- The code points that integers are written with. -/
def numeralSigns : List CodePoint :=
  ['-', '0', '1', '2', '3', '4', '5', '6', '7', '8', '9']

theorem mem_numeralSigns_of_isDigit {c : Char} (hc : c.isDigit = true) :
    CodePoint.ofChar c ∈ numeralSigns.tail := by
  rw [← Json.isAsciiDigit_ofChar] at hc
  generalize CodePoint.ofChar c = d at hc ⊢
  obtain ⟨val, hval⟩ := d
  simp only [Text.isAsciiDigit, Bool.and_eq_true, decide_eq_true_eq] at hc
  obtain ⟨hleast, hgreatest⟩ := hc
  interval_cases val <;> decide +revert

/-- The text of an integer: perhaps a minus sign, and digits. -/
theorem exists_ofInt_eq (n : Int) : ∃ sign digits : Text, Text.ofInt n = sign ++ digits ∧
    (sign = [] ∨ sign = [CodePoint.ofChar '-']) ∧ digits ≠ [] ∧ ∀ c ∈ digits, c ∈ numeralSigns.tail := by
  have hdigits (m : Nat) : Text.ofNat m ≠ [] ∧ ∀ c ∈ Text.ofNat m, c ∈ numeralSigns.tail := by
    refine ⟨by simp [Text.ofNat], List.forall_mem_map.mpr fun c hc => ?_⟩
    exact mem_numeralSigns_of_isDigit (Json.AreDigits.toDigits m c hc)
  cases n with
  | ofNat m => exact ⟨[], _, rfl, .inl rfl, hdigits m⟩
  | negSucc m => exact ⟨[CodePoint.ofChar '-'], _, rfl, .inr rfl, hdigits (m + 1)⟩

theorem strip_eq_self {t : Text} (h : ∀ c ∈ t, c.isBlank = false) : t.strip = t := by
  have hdrop {u : Text} (hu : ∀ c ∈ u, c.isBlank = false) : u.dropWhile CodePoint.isBlank = u := by
    cases u with
    | nil => rfl
    | cons c u => exact List.dropWhile_cons_of_neg (by simp [hu c List.mem_cons_self])
  have hreverse : ∀ c ∈ t.reverse, c.isBlank = false := fun c hc => h c (List.mem_reverse.mp hc)
  rw [Text.strip, Text.trim, hdrop h, hdrop hreverse, List.reverse_reverse]

/-- What begins like an integer is no word for a value. -/
theorem lower_not_mem_valueWords {c : CodePoint} (hc : c ∈ numeralSigns) (t : Text) :
    Text.lower (c :: t) ∉ valueWords := by
  have hsigns : ∀ d ∈ numeralSigns, d.val ≠ 0x3a3 ∧ d.lower = [d] := by decide
  have hwords : ∀ w ∈ valueWords, ∀ d ∈ w.head?, d ∉ numeralSigns := by decide
  obtain ⟨hsigma, hlower⟩ := hsigns c hc
  refine fun hmem => hwords _ hmem c ?_ hc
  rw [Text.lower, Text.lowerAfter, if_neg hsigma, hlower]
  rfl

theorem bareDigits_signed {sign digits : Text} (hsign : sign = [] ∨ sign = [CodePoint.ofChar '-'])
    (hdigits : ∀ c ∈ digits, c ∈ numeralSigns.tail) : bareDigits (sign ++ digits) = digits := by
  have hne : ∀ d ∈ numeralSigns.tail, d ≠ '-' ∧ d ≠ '.' := by decide
  have hdrop : digits.dropWhile (fun c : CodePoint => c = '-') = digits := by
    cases digits with
    | nil => rfl
    | cons c t =>
      exact List.dropWhile_cons_of_neg (by simpa using (hne c (hdigits c List.mem_cons_self)).1)
  have herase : digits.eraseP (fun c : CodePoint => c = '.') = digits :=
    List.eraseP_of_forall_not fun c hc => by simpa using (hne c (hdigits c hc)).2
  obtain rfl | rfl := hsign
  · rw [bareDigits, List.nil_append, hdrop, herase]
  · rw [bareDigits, List.singleton_append, List.dropWhile_cons_of_pos (by simp), hdrop, herase]

/-- The text of an integer, perhaps with blanks around it, stands for the integer, up to the most
digits that are read. -/
theorem scalar_of_strip_eq_ofInt {n : Int} (h : raw.strip = Text.ofInt n) :
    scalar raw =
      if n.natAbs < 10 ^ Json.digitLimit then .ok (.int n) else .error .tooManyDigits := by
  obtain ⟨sign, digits, hn, hsign, hne, hdigits⟩ := exists_ofInt_eq n
  obtain ⟨c, t, ht, hc⟩ : ∃ c t, Text.ofInt n = c :: t ∧ c ∈ numeralSigns := by
    rw [hn]
    obtain rfl | rfl := hsign
    · obtain ⟨c, t, rfl⟩ := List.exists_cons_of_ne_nil hne
      exact ⟨c, t, rfl, List.mem_of_mem_tail (hdigits c List.mem_cons_self)⟩
    · exact ⟨_, digits, rfl, List.mem_cons_self⟩
  have hopens : ¬Opens (Text.ofInt n) := by
    have hsigns : ∀ d ∈ numeralSigns, d ≠ '[' ∧ d ≠ '\x7b' := by decide
    rw [ht]
    rintro (heq | heq)
    · exact (hsigns c hc).1 (Option.some.inj heq)
    · exact (hsigns c hc).2 (Option.some.inj heq)
  have hbare : Text.isDigits (bareDigits (Text.ofInt n)) = true := by
    have hall : ∀ d ∈ numeralSigns.tail, d.isDigit = true := by decide
    rw [hn, bareDigits_signed hsign hdigits, Text.isDigits, Bool.and_eq_true, List.all_eq_true]
    exact ⟨by simpa using hne, fun c hc => hall c (hdigits c hc)⟩
  have hword : raw.strip.lower ∉ valueWords := by
    rw [h, ht]
    exact lower_not_mem_valueWords hc t
  rw [scalar_of_no_word hword, h, if_neg hopens, if_pos hbare, canonicalNumber]
  split_ifs with hlimit
  · rw [Json.decode_of_reads (.int hlimit)]
    dsimp only
    rw [if_pos (Json.encode_int n)]
  · rw [Json.decode_ofInt_of_le (Nat.not_lt.mp hlimit)]

/-- The text of an integer stands for the integer, up to the most digits that are read. -/
theorem scalar_ofInt (n : Int) :
    scalar (Text.ofInt n) =
      if n.natAbs < 10 ^ Json.digitLimit then .ok (.int n) else .error .tooManyDigits := by
  obtain ⟨sign, digits, hn, hsign, -, hdigits⟩ := exists_ofInt_eq n
  have hblank : ∀ d ∈ numeralSigns, d.isBlank = false := by decide
  refine scalar_of_strip_eq_ofInt (strip_eq_self fun c hc => hblank c ?_)
  rw [hn] at hc
  obtain hc | hc := List.mem_append.mp hc
  · obtain rfl | rfl := hsign
    · cases hc
    · exact List.mem_singleton.mp hc ▸ List.mem_cons_self
  · exact List.mem_of_mem_tail (hdigits c hc)

end DocStore.Settings
