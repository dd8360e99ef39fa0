import DocStore.Json.Decode
import DocStore.Json.Encode
import DocStore.Proofs.Json.Surrogate
import DocStore.Proofs.Text.Hex

/-!
Quoted texts, written and read back. A text that is not written in ASCII is read
as it is; one that is has its surrogates escaped one by one, and two halves that
stand next to each other come back as one character.
-/

namespace DocStore.Json

/-! ### Four hexadecimal digits -/

theorem unit?_hex {n : Nat} (h : n < 0x10000) :
    ∃ a b c d, Text.hex 4 n = [a, b, c, d] ∧ unit? a b c d = some n := by
  refine ⟨_, _, _, _, rfl, ?_⟩
  rw [unit?, Text.hexValue?_hexDigit (Nat.mod_lt _ (by omega)),
    Text.hexValue?_hexDigit (Nat.mod_lt _ (by omega)),
    Text.hexValue?_hexDigit (Nat.mod_lt _ (by omega)),
    Text.hexValue?_hexDigit (Nat.mod_lt _ (by omega))]
  simp only [Option.bind_eq_bind, Option.bind_some, Option.pure_def, Option.some.injEq]
  omega

theorem lowSurrogate?_unitEscape {n : Nat} (h : n < 0x10000) (rest : Text) :
    lowSurrogate? (unitEscape n ++ rest) =
      if (CodePoint.ofNat n).isLowSurrogate then some (CodePoint.ofNat n, rest) else none := by
  obtain ⟨a, b, c, d, hhex, hunit⟩ := unit?_hex h
  rw [unitEscape, hhex]
  show lowSurrogate? ('\\' :: 'u' :: a :: b :: c :: d :: rest) = _
  simp only [lowSurrogate?, hunit, and_self, if_true]

/-- A first half of a pair with the second half, when that is escaped right after it. -/
def withLow (high : CodePoint) (rest : Text) : CodePoint × Text :=
  match lowSurrogate? rest with
  | some (low, t) => (high.joinSurrogates low, t)
  | none => (high, rest)

theorem withLow_of_some {high low : CodePoint} {rest t : Text}
    (h : lowSurrogate? rest = some (low, t)) : withLow high rest = (high.joinSurrogates low, t) := by
  rw [withLow, h]

theorem withLow_of_none {high : CodePoint} {rest : Text} (h : lowSurrogate? rest = none) :
    withLow high rest = (high, rest) := by
  rw [withLow, h]

theorem character_unitEscape {n : Nat} (h : n < 0x10000) (rest : Text) :
    character (unitEscape n ++ rest) =
      .ok (if (CodePoint.ofNat n).isHighSurrogate then withLow (CodePoint.ofNat n) rest
        else (CodePoint.ofNat n, rest)) := by
  obtain ⟨a, b, c, d, hhex, hunit⟩ := unit?_hex h
  rw [unitEscape, hhex]
  show character ('\\' :: 'u' :: a :: b :: c :: d :: rest) = _
  simp only [character, hunit, if_true]
  by_cases hhigh : (CodePoint.ofNat n).isHighSurrogate = true
  · rw [if_pos hhigh, if_pos hhigh]
    cases hlow : lowSurrogate? rest with
    | none => rw [withLow_of_none hlow]
    | some found => rw [withLow_of_some hlow]
  · rw [if_neg hhigh, if_neg hhigh]

/-! ### One code point -/

/-- The ways in which a code point is written inside quotes. -/
inductive Escaped (asciiOnly : Bool) (c : CodePoint) : Text → Prop
  | letter {e : CodePoint} (he : e ≠ 'u') (h : simpleEscape? e = some c) :
      Escaped asciiOnly c ['\\', e]
  | plain (hquote : c ≠ '"') (hbackslash : c ≠ '\\') (hlow : 0x20 ≤ c.val)
      (hhigh : asciiOnly = true → c.val < 0x7f) : Escaped asciiOnly c [c]
  | unit (hlt : c.val < 0x10000) (h : c.val < 0x20 ∨ asciiOnly = true) :
      Escaped asciiOnly c (unitEscape c.val)
  | pair (hle : 0x10000 ≤ c.val) (h : asciiOnly = true) :
      Escaped asciiOnly c (unitEscape c.surrogates.1 ++ unitEscape c.surrogates.2)

theorem escaped (asciiOnly : Bool) (c : CodePoint) : Escaped asciiOnly c (escape asciiOnly c) := by
  have hletter {d e : CodePoint} (h : c = d) (he : e ≠ 'u') (hd : simpleEscape? e = some d) :
      Escaped asciiOnly c ['\\', e] := .letter he (by rw [h, hd])
  unfold escape
  by_cases hquote : c = '"'
  · rw [if_pos hquote]
    exact hletter hquote (by decide) (by decide)
  by_cases hbackslash : c = '\\'
  · rw [if_neg hquote, if_pos hbackslash]
    exact hletter hbackslash (by decide) (by decide)
  rw [if_neg hquote, if_neg hbackslash]
  by_cases hn : c = '\n'
  · rw [if_pos hn]
    exact hletter hn (by decide) (by decide)
  by_cases hr : c = '\r'
  · rw [if_neg hn, if_pos hr]
    exact hletter hr (by decide) (by decide)
  by_cases ht : c = '\t'
  · rw [if_neg hn, if_neg hr, if_pos ht]
    exact hletter ht (by decide) (by decide)
  rw [if_neg hn, if_neg hr, if_neg ht]
  by_cases hb : c.val = 0x08
  · rw [if_pos hb]
    exact hletter (d := CodePoint.ofNat 0x08) (CodePoint.ext hb) (by decide) (by decide)
  by_cases hf : c.val = 0x0c
  · rw [if_neg hb, if_pos hf]
    exact hletter (d := CodePoint.ofNat 0x0c) (CodePoint.ext hf) (by decide) (by decide)
  rw [if_neg hb, if_neg hf]
  by_cases hlow : c.val < 0x20
  · rw [if_pos hlow]
    exact .unit (by omega) (.inl hlow)
  rw [if_neg hlow]
  by_cases hplain : (!asciiOnly || decide (c.val < 0x7f)) = true
  · rw [if_pos hplain]
    refine .plain hquote hbackslash (by omega) fun hascii => ?_
    simpa [hascii] using hplain
  · rw [if_neg hplain]
    have hascii : asciiOnly = true := by
      cases asciiOnly
      · exact absurd rfl hplain
      · rfl
    by_cases hlt : c.val < 0x10000
    · rw [if_pos hlt]
      exact .unit hlt (.inr hascii)
    · rw [if_neg hlt]
      exact .pair (by omega) hascii

/-- What is written for a code point does not begin with a quote. -/
theorem Escaped.ne_quote {asciiOnly : Bool} {c : CodePoint} {t : Text} (h : Escaped asciiOnly c t) :
    ∃ d u, t = d :: u ∧ d ≠ '"' := by
  cases h with
  | letter he h => exact ⟨_, _, rfl, by decide⟩
  | plain hquote hbackslash hlow hhigh => exact ⟨_, _, rfl, hquote⟩
  | unit hlt h => exact ⟨'\\', _, rfl, by decide⟩
  | pair hle h => exact ⟨'\\', _, rfl, by decide⟩

theorem character_letter {c e : CodePoint} (he : e ≠ 'u') (h : simpleEscape? e = some c)
    (rest : Text) : character ([('\\' : CodePoint), e] ++ rest) = .ok (c, rest) := by
  show character ('\\' :: e :: rest) = _
  simp only [character, if_true, if_neg he, h]

theorem character_plain {c : CodePoint} (hbackslash : c ≠ '\\') (hlow : 0x20 ≤ c.val)
    (rest : Text) : character ([c] ++ rest) = .ok (c, rest) := by
  show character (c :: rest) = _
  simp only [character, if_neg hbackslash, if_neg (Nat.not_lt.mpr hlow)]

/-- A code point that is no first half of a pair is read back, whatever comes after it. -/
theorem Escaped.character_eq {asciiOnly : Bool} {c : CodePoint} {t : Text}
    (h : Escaped asciiOnly c t) (hc : asciiOnly = true → c.isHighSurrogate = false) (rest : Text) :
    character (t ++ rest) = .ok (c, rest) := by
  cases h with
  | letter he h => exact character_letter he h rest
  | plain hquote hbackslash hlow hhigh => exact character_plain hbackslash hlow rest
  | unit hlt h =>
    have hhigh : c.isHighSurrogate = false := by
      rcases h with h | h
      · simp only [CodePoint.isHighSurrogate, Bool.and_eq_false_iff, decide_eq_false_iff_not]
        omega
      · exact hc h
    rw [character_unitEscape hlt, CodePoint.ofNat_val, if_neg (by simp [hhigh])]
  | pair hle h =>
    obtain ⟨hltHigh, hhigh⟩ := CodePoint.isHighSurrogate_surrogates hle
    obtain ⟨hltLow, hlow⟩ := CodePoint.isLowSurrogate_surrogates c
    have hfound := lowSurrogate?_unitEscape hltLow rest
    rw [if_pos hlow] at hfound
    rw [List.append_assoc, character_unitEscape hltHigh, if_pos hhigh, withLow_of_some hfound,
      CodePoint.joinSurrogates_surrogates hle]

theorem simpleEscape?_lt {c e : CodePoint} (h : simpleEscape? e = some c) : c.val < 0x80 := by
  revert h
  unfold simpleEscape?
  split
  next he =>
    rintro ⟨⟩
    rcases he with rfl | rfl | rfl <;> decide
  next =>
    repeat' split
    all_goals rintro ⟨⟩ <;> decide

/-- A first half of a pair, written in ASCII, takes in a second half that comes after it. -/
theorem Escaped.character_highSurrogate {c : CodePoint} {t : Text} (h : Escaped true c t)
    (hc : c.isHighSurrogate = true) (rest : Text) :
    character (t ++ rest) = .ok (withLow c rest) := by
  have hrange : 0xd800 ≤ c.val ∧ c.val < 0xdc00 := by
    simpa [CodePoint.isHighSurrogate] using hc
  cases h with
  | letter he h =>
    have := simpleEscape?_lt h
    omega
  | plain hquote hbackslash hlow hhigh =>
    have := hhigh rfl
    omega
  | unit hlt h =>
    rw [character_unitEscape hlt, CodePoint.ofNat_val, if_pos hc]
  | pair hle h => omega

theorem lowSurrogate?_eq_none {t : Text} (h : ∀ u : Text, t ≠ ('\\' : CodePoint) :: ('u' : CodePoint) :: u) :
    lowSurrogate? t = none := by
  fun_cases lowSurrogate? t with
  | case1 backslash u a b c d t hmark n hunit hlow => exact absurd (by rw [hmark.1, hmark.2]) (h _)
  | case2 => rfl
  | case3 => rfl
  | case4 => rfl
  | case5 => rfl

/-- A second half of a pair is seen where it is escaped, and nothing else is taken for one. -/
theorem Escaped.lowSurrogate?_eq {c : CodePoint} {t : Text} (h : Escaped true c t) (rest : Text) :
    lowSurrogate? (t ++ rest) = if c.isLowSurrogate then some (c, rest) else none := by
  have hnot (hlt : c.val < 0xdc00 ∨ 0xe000 ≤ c.val) : c.isLowSurrogate = false := by
    simp only [CodePoint.isLowSurrogate, Bool.and_eq_false_iff, decide_eq_false_iff_not]
    omega
  cases h with
  | @letter e he h =>
    have hlt := simpleEscape?_lt h
    rw [hnot (by omega), lowSurrogate?_eq_none]
    · rfl
    · rintro u heq
      exact he (by injection heq with _ heq; injection heq)
  | plain hquote hbackslash hlow hhigh =>
    have hlt := hhigh rfl
    rw [hnot (by omega), lowSurrogate?_eq_none]
    · rfl
    · rintro u heq
      exact hbackslash (by injection heq)
  | unit hlt h => rw [lowSurrogate?_unitEscape hlt, CodePoint.ofNat_val]
  | pair hle h =>
    obtain ⟨hlt, hhigh⟩ := CodePoint.isHighSurrogate_surrogates hle
    rw [List.append_assoc, lowSurrogate?_unitEscape hlt, CodePoint.not_isLowSurrogate hhigh,
      hnot (by omega)]
    simp

/-! ### Texts -/

/-- What reading makes of a text that was written with or without the escapes of ASCII. -/
def reread (asciiOnly : Bool) (t : Text) : Text := if asciiOnly then t.rejoined else t

theorem quotedRest_step {c : CodePoint} {t rest : Text} {fuel : Nat} {s : Text}
    (ht : ∃ d u, t = d :: u ∧ d ≠ '"') (hc : character t = .ok (c, rest))
    {after : Text} (hrest : quotedRest fuel rest = .ok (s, after)) :
    quotedRest (fuel + 1) t = .ok (c :: s, after) := by
  obtain ⟨d, u, rfl, hd⟩ := ht
  rw [quotedRest, if_neg hd, hc]
  show (quotedRest fuel rest >>= fun r => pure (c :: r.1, r.2)) = _
  rw [hrest]
  rfl

theorem quotedRest_close (fuel : Nat) (rest : Text) :
    quotedRest (fuel + 1) ('"' :: rest) = .ok ([], rest) := by
  rw [quotedRest, if_pos rfl]

/-- The body of a quoted text and what comes after it. -/
def body (asciiOnly : Bool) (t rest : Text) : Text :=
  t.flatMap (escape asciiOnly) ++ ('"' : CodePoint) :: rest

theorem body_cons (asciiOnly : Bool) (c : CodePoint) (t rest : Text) :
    body asciiOnly (c :: t) rest = escape asciiOnly c ++ body asciiOnly t rest := by
  rw [body, List.flatMap_cons, List.append_assoc]
  rfl

theorem quotedRest_false (t rest : Text) {fuel : Nat} (hfuel : t.length < fuel) :
    quotedRest fuel (body false t rest) = .ok (t, rest) := by
  obtain ⟨fuel, rfl⟩ : ∃ n, fuel = n + 1 := ⟨fuel - 1, by omega⟩
  induction t generalizing fuel with
  | nil => exact quotedRest_close fuel rest
  | cons c t ih =>
    simp only [List.length_cons] at hfuel
    obtain ⟨fuel, rfl⟩ : ∃ n, fuel = n + 1 := ⟨fuel - 1, by omega⟩
    have hc := escaped false c
    obtain ⟨d, u, heq, hd⟩ := hc.ne_quote
    rw [body_cons]
    refine quotedRest_step ⟨d, u ++ body false t rest, by rw [heq]; rfl, hd⟩
      (hc.character_eq (by simp) _) (ih fuel (by omega))

theorem lowSurrogate?_body_nil (rest : Text) : lowSurrogate? (body true [] rest) = none :=
  lowSurrogate?_eq_none fun _ heq => nomatch (List.cons_eq_cons.mp heq).1

theorem lowSurrogate?_body_cons (c : CodePoint) (t rest : Text) :
    lowSurrogate? (body true (c :: t) rest) =
      if c.isLowSurrogate then some (c, body true t rest) else none := by
  rw [body_cons]
  exact (escaped true c).lowSurrogate?_eq _

theorem character_body_pair {c d : CodePoint} (hc : c.isHighSurrogate = true)
    (hd : d.isLowSurrogate = true) (t rest : Text) :
    character (body true (c :: d :: t) rest) = .ok (c.joinSurrogates d, body true t rest) := by
  rw [body_cons, (escaped true c).character_highSurrogate hc, withLow_of_some]
  rw [lowSurrogate?_body_cons, if_pos hd]

theorem character_body {c : CodePoint} {t : Text}
    (h : ∀ d ∈ t.head?, ¬(c.isHighSurrogate = true ∧ d.isLowSurrogate = true)) (rest : Text) :
    character (body true (c :: t) rest) = .ok (c, body true t rest) := by
  rw [body_cons]
  by_cases hc : c.isHighSurrogate = true
  · rw [(escaped true c).character_highSurrogate hc, withLow_of_none]
    cases t with
    | nil => exact lowSurrogate?_body_nil rest
    | cons d t => rw [lowSurrogate?_body_cons, if_neg fun hd => h d rfl ⟨hc, hd⟩]
  · exact (escaped true c).character_eq (fun _ => by simpa using hc) _

theorem quotedRest_true (t rest : Text) {fuel : Nat} (hfuel : t.length < fuel) :
    quotedRest fuel (body true t rest) = .ok (t.rejoined, rest) := by
  have hstart (c : CodePoint) (t : Text) :
      ∃ d u, body true (c :: t) rest = d :: u ∧ d ≠ '"' := by
    obtain ⟨d, u, heq, hd⟩ := (escaped true c).ne_quote
    exact ⟨d, u ++ body true t rest, by rw [body_cons, heq]; rfl, hd⟩
  obtain ⟨fuel, rfl⟩ : ∃ n, fuel = n + 1 := ⟨fuel - 1, by omega⟩
  fun_induction Text.rejoined t generalizing fuel with
  | case1 => exact quotedRest_close fuel rest
  | case2 c =>
    simp only [List.length_singleton] at hfuel
    obtain ⟨fuel, rfl⟩ : ∃ n, fuel = n + 1 := ⟨fuel - 1, by omega⟩
    exact quotedRest_step (hstart c []) (character_body (by simp) rest) (quotedRest_close fuel rest)
  | case3 c d t h ih =>
    simp only [List.length_cons] at hfuel
    obtain ⟨fuel, rfl⟩ : ∃ n, fuel = n + 1 := ⟨fuel - 1, by omega⟩
    rw [Bool.and_eq_true] at h
    exact quotedRest_step (hstart c (d :: t)) (character_body_pair h.1 h.2 t rest) (ih fuel (by omega))
  | case4 c d t h ih =>
    simp only [List.length_cons] at hfuel ih
    obtain ⟨fuel, rfl⟩ : ∃ n, fuel = n + 1 := ⟨fuel - 1, by omega⟩
    refine quotedRest_step (hstart c (d :: t)) (character_body ?_ rest) (ih fuel (by omega))
    rintro _ ⟨⟩
    simpa using h

theorem length_le_length_body (asciiOnly : Bool) (t rest : Text) :
    t.length ≤ (body asciiOnly t rest).length := by
  induction t with
  | nil => exact Nat.zero_le _
  | cons c t ih =>
    obtain ⟨d, u, heq, -⟩ := (escaped asciiOnly c).ne_quote
    rw [body_cons, heq, List.length_append]
    simp only [List.length_cons]
    omega

/-- A quoted text is read up to its closing quote. -/
theorem quoted_body (asciiOnly : Bool) (t rest : Text) :
    quoted (body asciiOnly t rest) = .ok (reread asciiOnly t, rest) := by
  have hfuel := Nat.lt_succ_of_le (length_le_length_body asciiOnly t rest)
  cases asciiOnly with
  | false => exact quotedRest_false t rest hfuel
  | true => exact quotedRest_true t rest hfuel

theorem quote_append (asciiOnly : Bool) (t rest : Text) :
    quote asciiOnly t ++ rest = ('"' : CodePoint) :: body asciiOnly t rest := by
  simp only [quote, body, Text.ofString, List.append_assoc]
  rfl

end DocStore.Json
