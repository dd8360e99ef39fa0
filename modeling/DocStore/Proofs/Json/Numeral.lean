import DocStore.Json.Decode
import DocStore.Json.Encode
import Mathlib.Data.List.TakeDrop

/-!
Numbers as JSON reads them. A numeral is a row of digits, perhaps with a fraction
and an exponent; it is read up to the mark that ends the value it is, and an
integer is converted when it has few enough digits.
-/

namespace DocStore.Json

/-- What may come after a value: nothing, or a mark that no number goes on with. -/
def Ends (rest : Text) : Prop := ∀ c ∈ rest.head?, c = ',' ∨ c = ']' ∨ c = '\x7d'

/-- A row of ASCII digits. -/
def AreDigits (cs : List Char) : Prop := ∀ c ∈ cs, c.isDigit = true

namespace AreDigits

theorem append {cs ds : List Char} (hcs : AreDigits cs) (hds : AreDigits ds) :
    AreDigits (cs ++ ds) := fun c hc => (List.mem_append.mp hc).elim (hcs c) (hds c)

theorem mono {cs ds : List Char} (hds : AreDigits ds) (h : cs ⊆ ds) : AreDigits cs :=
  fun c hc => hds c (h hc)

theorem toDigits (n : Nat) : AreDigits (Nat.toDigits 10 n) :=
  fun _ hc => Nat.isDigit_of_mem_toDigits (by omega) (by omega) hc

theorem replicate_zero (n : Nat) : AreDigits (List.replicate n '0') := by
  intro c hc
  rw [List.eq_of_mem_replicate hc]
  rfl

end AreDigits

theorem isAsciiDigit_ofChar (c : Char) : Text.isAsciiDigit c = c.isDigit := by
  simp only [Text.isAsciiDigit, Char.isDigit, CodePoint.ofChar, ge_iff_le, UInt32.le_iff_toNat_le]
  rfl

theorem digitsValue_map (cs : List Char) :
    Text.digitsValue (cs.map CodePoint.ofChar) = Nat.ofDigitChars 10 cs 0 := by
  rw [Text.digitsValue, Nat.ofDigitChars_eq_foldl, List.foldl_map]
  congr
  funext n c
  rw [Nat.mul_comm]
  rfl

theorem spanDigits_append {cs : List Char} (hcs : AreDigits cs) {rest : Text}
    (hrest : ∀ c ∈ rest.head?, Text.isAsciiDigit c = false) :
    spanDigits (cs.map CodePoint.ofChar ++ rest) = (cs.map CodePoint.ofChar, rest) := by
  rw [spanDigits, List.span_eq_takeWhile_dropWhile]
  have hall : ∀ c ∈ cs.map CodePoint.ofChar, Text.isAsciiDigit c = true := by
    intro d hd
    obtain ⟨c, hc, rfl⟩ := List.mem_map.mp hd
    rw [isAsciiDigit_ofChar, hcs c hc]
  rw [List.takeWhile_append_of_pos hall, List.dropWhile_append_of_pos hall]
  cases rest with
  | nil => simp
  | cons c rest =>
    have hc := hrest c rfl
    simp [hc]

/-! ### The parts of a numeral -/

/-- The digits before a point: no zero stands before others. -/
structure IsWhole (cs : List Char) : Prop where
  digits : AreDigits cs
  ne_nil : cs ≠ []
  head : cs = ['0'] ∨ cs.head? ≠ some '0'

theorem head?_toDigits {n : Nat} (h : 0 < n) : (Nat.toDigits 10 n).head? ≠ some '0' := by
  induction n using Nat.strongRecOn with
  | ind n ih =>
    rw [Nat.toDigits_eq_if (by omega)]
    by_cases hn : n < 10
    · rw [if_pos hn]
      intro heq
      have := Nat.digitChar_eq_zero.mp (Option.some.inj heq)
      omega
    · rw [if_neg hn, List.head?_append]
      have hhead := ih (n / 10) (by omega) (by omega)
      cases hdigits : Nat.toDigits 10 (n / 10) with
      | nil => exact absurd hdigits Nat.toDigits_ne_nil
      | cons c cs =>
        rw [hdigits] at hhead
        exact hhead

theorem IsWhole.toDigits (n : Nat) : IsWhole (Nat.toDigits 10 n) where
  digits := .toDigits n
  ne_nil := Nat.toDigits_ne_nil
  head := by
    rcases Nat.eq_zero_or_pos n with rfl | h
    · exact .inl (Nat.toDigits_zero 10)
    · exact .inr (head?_toDigits h)

theorem wholeDigits_append {cs : List Char} (hcs : IsWhole cs) {rest : Text}
    (hrest : ∀ c ∈ rest.head?, Text.isAsciiDigit c = false) :
    wholeDigits (cs.map CodePoint.ofChar ++ rest) = some (cs.map CodePoint.ofChar, rest) := by
  obtain ⟨hdigits, hne, hhead⟩ := hcs
  cases cs with
  | nil => exact absurd rfl hne
  | cons c cs =>
    obtain ⟨hc, hcs⟩ := List.forall_mem_cons.mp hdigits
    show wholeDigits (CodePoint.ofChar c :: (cs.map CodePoint.ofChar ++ rest)) = _
    rw [wholeDigits]
    by_cases hzero : c = '0'
    · subst hzero
      rcases hhead with heq | h
      · cases heq
        rfl
      · exact absurd rfl h
    · have hdigit : Text.isAsciiDigit c = true := by rw [isAsciiDigit_ofChar, hc]
      have hval : (CodePoint.ofChar c).val ≠ 0x30 := by
        intro heq
        refine hzero (Char.ext (UInt32.toNat_inj.mp ?_))
        exact heq
      have hrange : 0x30 ≤ (CodePoint.ofChar c).val ∧ (CodePoint.ofChar c).val ≤ 0x39 := by
        simpa [Text.isAsciiDigit] using hdigit
      rw [if_neg (fun heq => hval (by rw [heq]; rfl)), if_neg, spanDigits_append hcs hrest]
      · rfl
      · rw [hdigit]
        simp only [Bool.not_true, Bool.false_eq_true, or_false]
        omega

/-- An exponent: whether it is negative, and the digits of its size. -/
abbrev Power := Bool × List Char

/-- The fraction of a numeral. -/
def pointText (fraction : List Char) : List Char :=
  if fraction = [] then [] else '.' :: fraction

/-- The exponent of a numeral. -/
def powerText : Option Power → List Char
  | none => []
  | some (negative, size) => 'e' :: (if negative then '-' else '+') :: size

/-- The number that an exponent is. -/
def Power.value (p : Power) : Int :=
  if p.1 then -(Nat.ofDigitChars 10 p.2 0 : Int) else Nat.ofDigitChars 10 p.2 0

variable {rest : Text}

theorem Ends.not_isAsciiDigit (h : Ends rest) : ∀ c ∈ rest.head?, Text.isAsciiDigit c = false := by
  intro c hc
  rcases h c hc with rfl | rfl | rfl <;> decide

theorem Ends.ne_point (h : Ends rest) : ∀ c ∈ rest.head?, c ≠ '.' := by
  intro c hc
  rcases h c hc with rfl | rfl | rfl <;> decide

theorem fraction_append (cs : List Char) (hcs : AreDigits cs)
    (hdigit : ∀ c ∈ rest.head?, Text.isAsciiDigit c = false)
    (hpoint : ∀ c ∈ rest.head?, c ≠ '.') :
    fraction ((pointText cs).map CodePoint.ofChar ++ rest) =
      (if cs = [] then none else some (cs.map CodePoint.ofChar), rest) := by
  by_cases hne : cs = []
  · rw [pointText, if_pos hne, if_pos hne]
    show fraction rest = _
    cases rest with
    | nil => rfl
    | cons c rest => rw [fraction, if_neg (hpoint c rfl)]
  · rw [pointText, if_neg hne, if_neg hne]
    show fraction (CodePoint.ofChar '.' :: (cs.map CodePoint.ofChar ++ rest)) = _
    rw [fraction, if_pos rfl, spanDigits_append hcs hdigit]
    cases cs with
    | nil => exact absurd rfl hne
    | cons c cs => rfl

theorem exponent_append {p : Option Power} (hp : ∀ q ∈ p, AreDigits q.2 ∧ q.2 ≠ [])
    (hrest : Ends rest) :
    exponent ((powerText p).map CodePoint.ofChar ++ rest) = (p.map Power.value, rest) := by
  cases p with
  | none =>
    show exponent rest = _
    cases rest with
    | nil => rfl
    | cons c rest =>
      rw [exponent, if_neg]
      · rfl
      · rcases hrest c rfl with rfl | rfl | rfl <;> decide
  | some q =>
    obtain ⟨negative, size⟩ := q
    obtain ⟨hsize, hne⟩ := hp _ rfl
    have hspan := spanDigits_append hsize hrest.not_isAsciiDigit
    have hsign : exponentSign (CodePoint.ofChar (if negative then '-' else '+') ::
        (size.map CodePoint.ofChar ++ rest)) = (negative, size.map CodePoint.ofChar ++ rest) := by
      cases negative <;> rfl
    show exponent (CodePoint.ofChar 'e' :: CodePoint.ofChar (if negative then '-' else '+') ::
      (size.map CodePoint.ofChar ++ rest)) = _
    rw [exponent, if_pos (.inl rfl), hsign]
    dsimp only
    rw [hspan]
    cases size with
    | nil => exact absurd rfl hne
    | cons c size =>
      show (some (if negative then -_ else _), rest) = _
      rw [digitsValue_map]
      rfl

/-! ### Numerals -/

/-- A numeral with a fraction or an exponent. -/
structure Decimal where
  whole : List Char
  fraction : List Char
  power : Option Power
  isWhole : IsWhole whole
  areDigits : AreDigits fraction
  isPower : ∀ p ∈ power, AreDigits p.2 ∧ p.2 ≠ []
  isFloat : fraction ≠ [] ∨ power ≠ none

namespace Decimal

/-- The characters of a numeral. -/
def chars (d : Decimal) : List Char := d.whole ++ (pointText d.fraction ++ powerText d.power)

/-- The digits of a numeral as one number. -/
def digits (d : Decimal) : Nat := Nat.ofDigitChars 10 (d.whole ++ d.fraction) 0

/-- The power of ten that the digits count. -/
def exponent (d : Decimal) : Int := (d.power.map Power.value).getD 0 - d.fraction.length

/-- A numeral with a fraction or an exponent is a float. -/
theorem number_eq (d : Decimal) (hrest : Ends rest) (negative : Bool) :
    number negative (d.chars.map CodePoint.ofChar ++ rest) =
      .ok (.float (Binary64.ofDecimal negative d.digits d.exponent), rest) := by
  obtain ⟨whole, fraction, power, hwhole, hfraction, hpower, hsome⟩ := d
  show number negative
      ((whole ++ (pointText fraction ++ powerText power)).map CodePoint.ofChar ++ rest) =
    .ok (.float (Binary64.ofDecimal negative (Nat.ofDigitChars 10 (whole ++ fraction) 0)
      ((power.map Power.value).getD 0 - fraction.length)), rest)
  have hfractionEnds : ∀ c ∈ ((powerText power).map CodePoint.ofChar ++ rest).head?,
      Text.isAsciiDigit c = false ∧ c ≠ '.' := by
    cases power with
    | none =>
      intro c hc
      rcases hrest c hc with rfl | rfl | rfl <;> decide
    | some q =>
      rintro _ ⟨⟩
      decide
  have hwholeEnds : ∀ c ∈ ((pointText fraction).map CodePoint.ofChar ++
      ((powerText power).map CodePoint.ofChar ++ rest)).head?, Text.isAsciiDigit c = false := by
    by_cases hne : fraction = []
    · rw [pointText, if_pos hne]
      exact fun c hc => (hfractionEnds c hc).1
    · rw [pointText, if_neg hne]
      rintro _ ⟨⟩
      decide
  rw [List.map_append, List.map_append, List.append_assoc, List.append_assoc, number,
    wholeDigits_append hwhole hwholeEnds]
  dsimp only
  rw [fraction_append fraction hfraction (fun c hc => (hfractionEnds c hc).1)
    (fun c hc => (hfractionEnds c hc).2)]
  dsimp only
  rw [exponent_append hpower hrest]
  dsimp only
  by_cases hne : fraction = []
  · rw [if_pos hne, if_neg]
    · rw [hne, List.append_nil, ← digitsValue_map]
      simp
    · cases power with
      | none => exact absurd hsome (by simp [hne])
      | some q => simp
  · rw [if_neg hne, if_neg (by simp), ← digitsValue_map]
    simp

end Decimal

/-- A row of digits is an integer, unless it is too long. -/
theorem number_digits {cs : List Char} (hcs : IsWhole cs) (hrest : Ends rest) (negative : Bool) :
    number negative (cs.map CodePoint.ofChar ++ rest) =
      if digitLimit < cs.length then .error .tooManyDigits
      else .ok (.int (if negative then -(Nat.ofDigitChars 10 cs 0 : Int)
        else Nat.ofDigitChars 10 cs 0), rest) := by
  have hfraction : fraction rest = (none, rest) :=
    fraction_append [] (fun _ h => nomatch h) hrest.not_isAsciiDigit hrest.ne_point
  have hexponent : exponent rest = (none, rest) :=
    exponent_append (p := none) (fun _ h => nomatch h) hrest
  rw [number, wholeDigits_append hcs hrest.not_isAsciiDigit]
  dsimp only
  rw [hfraction]
  dsimp only
  rw [hexponent]
  simp only [Option.isNone_none, Bool.and_self, if_true]
  rw [List.length_map, digitsValue_map]

/-! ### Words and numbers -/

/-- A word begins with a letter, perhaps after a minus sign. -/
theorem head_of_mem_words {w : Text × Value} (h : w ∈ words) :
    (∃ d u, w.1 = d :: u ∧ d ≠ '-' ∧ Text.isAsciiDigit d = false) ∨
      ∃ d u, w.1 = ('-' : CodePoint) :: d :: u ∧ Text.isAsciiDigit d = false := by
  simp only [words, List.mem_cons, List.not_mem_nil, or_false] at h
  rcases h with rfl | rfl | rfl | rfl | rfl | rfl
  case inr.inr.inr.inr.inr => exact .inr ⟨_, _, rfl, by decide⟩
  all_goals exact .inl ⟨_, _, rfl, by decide, by decide⟩

theorem after?_cons_ne {c d : CodePoint} (h : c ≠ d) (t word : Text) :
    Text.after? (c :: t) (d :: word) = none := by
  rw [Text.after?, if_neg h]

theorem atom_of_no_word {c : CodePoint} {t : Text}
    (h : ∀ w ∈ words, Text.after? (c :: t) w.1 = none) :
    atom (c :: t) = if c = '-' then number true t else number false (c :: t) := by
  rw [atom, List.findSome?_eq_none_iff.mpr]
  rintro ⟨word, v⟩ hw
  have hword : Text.after? (c :: t) word = none := h _ hw
  simp only [hword, Option.map_none]

variable {c : Char}

theorem atom_digit (hc : c.isDigit = true) (t : Text) :
    atom (CodePoint.ofChar c :: t) = number false (CodePoint.ofChar c :: t) := by
  have hdigit : Text.isAsciiDigit (CodePoint.ofChar c) = true := by rw [isAsciiDigit_ofChar, hc]
  rw [atom_of_no_word, if_neg]
  · intro heq
    rw [heq] at hdigit
    exact absurd hdigit (by decide)
  · intro w hw
    obtain ⟨d, u, heq, -, hd⟩ | ⟨d, u, heq, -⟩ := head_of_mem_words hw <;> rw [heq] <;>
      refine after?_cons_ne ?_ _ _ <;> intro hcd <;> rw [hcd] at hdigit
    · exact absurd hdigit (by simp [hd])
    · exact absurd hdigit (by decide)

theorem atom_negative (hc : c.isDigit = true) (t : Text) :
    atom (('-' : CodePoint) :: CodePoint.ofChar c :: t) = number true (CodePoint.ofChar c :: t) := by
  have hdigit : Text.isAsciiDigit (CodePoint.ofChar c) = true := by rw [isAsciiDigit_ofChar, hc]
  rw [atom_of_no_word, if_pos rfl]
  intro w hw
  obtain ⟨d, u, heq, hd, -⟩ | ⟨d, u, heq, hd⟩ := head_of_mem_words hw <;> rw [heq]
  · exact after?_cons_ne (Ne.symm hd) _ _
  · rw [Text.after?, if_pos rfl]
    refine after?_cons_ne (fun hcd => ?_) _ _
    rw [hcd, hd] at hdigit
    cases hdigit

end DocStore.Json
