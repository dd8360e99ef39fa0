import DocStore.Proofs.Json.Numeral
import DocStore.Proofs.Json.Reread
import DocStore.Proofs.Text.Search
import Mathlib.Algebra.Group.Nat.Defs
import Mathlib.Data.List.Forall2

/-!
Texts that are read as values. Such a text begins with a mark of its own and is
read up to its end, whatever follows, with as much fuel as it is long twice
over; this goes from the items of a list and the members of an object to the
list and the object.
-/

namespace DocStore.Json

/-- A text is read as a value wherever it stands. -/
structure Reads (t : Text) (v : Value) : Prop where
  start : ∃ c u, t = c :: u ∧ isSpace c = false ∧ c ≠ ']'
  value : ∀ (fuel : Nat) (rest : Text), 2 * t.length ≤ fuel → Ends rest →
    Json.value fuel (t ++ rest) = .ok (v, rest)

theorem skipSpace_of_not_isSpace {c : CodePoint} (h : isSpace c = false) (t : Text) :
    skipSpace (c :: t) = c :: t := by
  rw [skipSpace, List.dropWhile_cons, h]
  rfl

theorem Reads.skipSpace_eq {t : Text} {v : Value} (h : Reads t v) (rest : Text) :
    skipSpace (t ++ rest) = t ++ rest := by
  obtain ⟨c, u, rfl, hspace, -⟩ := h.start
  exact skipSpace_of_not_isSpace hspace _

/-- What follows an item of a row. -/
theorem ends_mark {c : CodePoint} (h : c = ',' ∨ c = ']' ∨ c = '\x7d') (rest : Text) :
    Ends (c :: rest) := by
  rintro _ ⟨⟩
  exact h

/-- Parts with commas between them. -/
theorem join_singleton (t : Text) : Text.join "," [t] = t := by
  simp [Text.join, List.intercalate]

theorem join_cons_cons (t u : Text) (parts : List Text) :
    Text.join "," (t :: u :: parts) = t ++ (',' : CodePoint) :: Text.join "," (u :: parts) := by
  simp [Text.join, List.intercalate, Text.ofString]

theorem join_eq_append (t : Text) (parts : List Text) :
    ∃ u, Text.join "," (t :: parts) = t ++ u := by
  cases parts with
  | nil => exact ⟨[], by rw [join_singleton, List.append_nil]⟩
  | cons part parts => exact ⟨_, join_cons_cons t part parts⟩

/-! ### Words, numbers and texts -/

theorem value_atom {c : CodePoint} (hquote : c ≠ '"') (hlist : c ≠ '[') (hobject : c ≠ '\x7b')
    (fuel : Nat) (t : Text) : value (fuel + 1) (c :: t) = atom (c :: t) := by
  rw [value, if_neg hquote, if_neg hlist, if_neg hobject]

/-- What is read as a word or a number. -/
theorem Reads.of_atom {c : CodePoint} {t : Text} {v : Value}
    (hstart : isSpace c = false ∧ c ≠ ']' ∧ c ≠ '"' ∧ c ≠ '[' ∧ c ≠ '\x7b')
    (h : ∀ rest, Ends rest → atom (c :: t ++ rest) = .ok (v, rest)) : Reads (c :: t) v := by
  obtain ⟨hspace, hclose, hquote, hlist, hobject⟩ := hstart
  refine ⟨⟨c, t, rfl, hspace, hclose⟩, fun fuel rest hfuel hrest => ?_⟩
  obtain ⟨fuel, rfl⟩ : ∃ n, fuel = n + 1 :=
    ⟨fuel - 1, by rw [List.length_cons] at hfuel; omega⟩
  exact (value_atom hquote hlist hobject fuel _).trans (h rest hrest)

/-- Of words that begin with different marks, the one that is there is found. -/
theorem findSome?_word {ws : List (Text × Value)} (hstart : ∀ w ∈ ws, w.1 ≠ [])
    (hws : ws.Pairwise fun v w => v.1.head? ≠ w.1.head?) {w : Text × Value} (hw : w ∈ ws)
    (rest : Text) :
    (ws.findSome? fun (word, v) => (Text.after? (w.1 ++ rest) word).map (v, ·)) =
      some (w.2, rest) := by
  induction hws with
  | nil => cases hw
  | @cons v ws hv _ ih =>
    obtain ⟨hne, hstart⟩ := List.forall_mem_cons.mp hstart
    rcases List.mem_cons.mp hw with rfl | hmem
    · simp only [List.findSome?_cons, Text.after?_append, Option.map_some]
    · obtain ⟨c, t, hc⟩ := List.exists_cons_of_ne_nil hne
      obtain ⟨d, u, hd⟩ := List.exists_cons_of_ne_nil (hstart w hmem)
      have hdc : d ≠ c := by
        rintro rfl
        exact hv w hmem (by rw [hc, hd]; rfl)
      have hnone : Text.after? (w.1 ++ rest) v.1 = none := by
        rw [hc, hd]
        exact after?_cons_ne hdc _ _
      simp only [List.findSome?_cons, hnone, Option.map_none]
      exact ih hstart hmem

theorem Reads.word {t : Text} {v : Value} (h : (t, v) ∈ words) : Reads t v := by
  have hstart : ∀ w ∈ words, w.1 ≠ [] := by
    intro w hw
    obtain ⟨d, u, heq, -⟩ | ⟨d, u, heq, -⟩ := head_of_mem_words hw <;> simp [heq]
  have hmark : ∀ w ∈ words, ∀ c ∈ w.1.head?,
      isSpace c = false ∧ c ≠ ']' ∧ c ≠ '"' ∧ c ≠ '[' ∧ c ≠ '\x7b' := by decide
  have hatom (rest : Text) : atom (t ++ rest) = .ok (v, rest) := by
    unfold atom
    rw [findSome?_word hstart (by decide) h]
  obtain ⟨c, u, rfl⟩ := List.exists_cons_of_ne_nil (hstart _ h)
  exact .of_atom (hmark _ h c rfl) fun rest _ => hatom rest

/-- A digit begins nothing but a number. -/
theorem start_digit {c : Char} (hc : c.isDigit = true) :
    isSpace (CodePoint.ofChar c) = false ∧ CodePoint.ofChar c ≠ ']' ∧ CodePoint.ofChar c ≠ '"' ∧
      CodePoint.ofChar c ≠ '[' ∧ CodePoint.ofChar c ≠ '\x7b' := by
  have hdigit : Text.isAsciiDigit (CodePoint.ofChar c) = true := by rw [isAsciiDigit_ofChar, hc]
  have hne (d : CodePoint) (hd : Text.isAsciiDigit d = false) : CodePoint.ofChar c ≠ d := by
    rintro heq
    rw [heq, hd] at hdigit
    cases hdigit
  refine ⟨?_, hne _ (by decide), hne _ (by decide), hne _ (by decide), hne _ (by decide)⟩
  simp only [isSpace, Bool.or_eq_false_iff, decide_eq_false_iff_not]
  exact ⟨⟨⟨hne _ (by decide), hne _ (by decide)⟩, hne _ (by decide)⟩, hne _ (by decide)⟩

/-- A numeral, perhaps after a minus sign. -/
def signedText (negative : Bool) (cs : List Char) : Text :=
  ((if negative then ['-'] else []) ++ cs).map CodePoint.ofChar

theorem signedText_start (negative : Bool) {c : Char} (hc : c.isDigit = true) (cs : List Char) :
    ∃ d u, signedText negative (c :: cs) = d :: u ∧ isSpace d = false ∧ d ≠ ']' := by
  cases negative with
  | false => exact ⟨_, _, rfl, (start_digit hc).1, (start_digit hc).2.1⟩
  | true => exact ⟨'-', _, rfl, by decide, by decide⟩

/-- What begins with a digit, or with a minus sign and a digit, is read as a number. -/
theorem value_signedText (negative : Bool) {c : Char} (hc : c.isDigit = true) (cs : List Char)
    (fuel : Nat) (rest : Text) :
    value (fuel + 1) (signedText negative (c :: cs) ++ rest) =
      number negative ((c :: cs).map CodePoint.ofChar ++ rest) := by
  cases negative with
  | false =>
    obtain ⟨-, -, hquote, hlist, hobject⟩ := start_digit hc
    exact (value_atom hquote hlist hobject fuel _).trans (atom_digit hc _)
  | true =>
    exact (value_atom (c := '-') (by decide) (by decide) (by decide) fuel _).trans (atom_negative hc _)

theorem Reads.of_number {negative : Bool} {c : Char} (hc : c.isDigit = true) {cs : List Char}
    {v : Value} (h : ∀ rest, Ends rest →
      number negative ((c :: cs).map CodePoint.ofChar ++ rest) = .ok (v, rest)) :
    Reads (signedText negative (c :: cs)) v := by
  refine ⟨signedText_start negative hc cs, fun fuel rest hfuel hrest => ?_⟩
  have hlength : 0 < (signedText negative (c :: cs)).length := by
    obtain ⟨d, u, heq, -⟩ := signedText_start negative hc cs
    rw [heq]
    exact Nat.succ_pos _
  obtain ⟨fuel, rfl⟩ : ∃ n, fuel = n + 1 := ⟨fuel - 1, by omega⟩
  exact (value_signedText negative hc cs fuel rest).trans (h rest hrest)

/-- The numeral of a natural number, as text and as a number. -/
theorem exists_toDigits (n : Nat) :
    ∃ c cs, Nat.toDigits 10 n = c :: cs ∧ c.isDigit = true ∧ ∀ negative rest, Ends rest →
      number negative ((c :: cs).map CodePoint.ofChar ++ rest) =
        if n < 10 ^ digitLimit then .ok (.int (if negative then -(n : Int) else n), rest)
        else .error .tooManyDigits := by
  obtain ⟨c, cs, hcs⟩ := List.exists_cons_of_ne_nil (Nat.toDigits_ne_nil (b := 10) (n := n))
  refine ⟨c, cs, hcs, AreDigits.toDigits n c (by rw [hcs]; exact List.mem_cons_self ..), ?_⟩
  intro negative rest hrest
  have hlength : digitLimit < (Nat.toDigits 10 n).length ↔ ¬n < 10 ^ digitLimit := by
    rw [← Nat.length_toDigits_le_iff (by omega) (by decide), Nat.not_le]
  have hvalue : Nat.ofDigitChars 10 (Nat.toDigits 10 n) 0 = n :=
    Nat.ofDigitChars_toDigits (by omega) (by omega)
  rw [← hcs, number_digits (.toDigits n) hrest, hvalue]
  by_cases hn : n < 10 ^ digitLimit
  · rw [if_neg (fun h => hlength.mp h hn), if_pos hn]
  · rw [if_pos (hlength.mpr hn), if_neg hn]

/-- The text of an integer. -/
theorem ofInt_eq (n : Int) :
    Text.ofInt n = signedText (decide (n < 0)) (Nat.toDigits 10 n.natAbs) := by
  cases n with
  | ofNat n =>
    have hsign : decide (Int.ofNat n < 0) = false :=
      decide_eq_false (Int.not_lt.mpr (Int.natCast_nonneg n))
    rw [hsign]
    rfl
  | negSucc n =>
    have hsign : decide (Int.negSucc n < 0) = true := decide_eq_true (Int.negSucc_lt_zero n)
    rw [hsign]
    rfl

theorem Reads.int {n : Int} (h : n.natAbs < 10 ^ digitLimit) : Reads (Text.ofInt n) (.int n) := by
  obtain ⟨c, cs, hcs, hc, hnumber⟩ := exists_toDigits n.natAbs
  rw [ofInt_eq, hcs]
  refine .of_number hc fun rest hrest => ?_
  have hsign : (if decide (n < 0) = true then -(n.natAbs : Int) else n.natAbs) = n := by
    simp only [decide_eq_true_eq]
    split <;> omega
  rw [hnumber _ rest hrest, if_pos h, hsign]

theorem Reads.str (asciiOnly : Bool) (t : Text) :
    Reads (quote asciiOnly t) (.str (reread asciiOnly t)) := by
  refine ⟨⟨'"', _, rfl, by decide, by decide⟩, fun fuel rest hfuel _ => ?_⟩
  obtain ⟨fuel, rfl⟩ : ∃ n, fuel = n + 1 := by
    refine ⟨fuel - 1, ?_⟩
    have : 0 < (quote asciiOnly t).length := by simp [quote, Text.ofString]
    omega
  rw [quote_append, Json.value, if_pos rfl, quoted_body]
  rfl

/-! ### Lists -/

theorem items_last {fuel : Nat} {t rest : Text} {v : Value}
    (h : value fuel t = .ok (v, ']' :: rest)) : items (fuel + 1) t = .ok ([v], rest) := by
  rw [items, h]
  dsimp only [bind, Except.bind]
  rw [skipSpace_of_not_isSpace (by decide)]
  rfl

theorem items_next {fuel : Nat} {t u rest : Text} {v : Value} {vs : List Value}
    (h : value fuel t = .ok (v, ',' :: u)) (hrest : items fuel (skipSpace u) = .ok (vs, rest)) :
    items (fuel + 1) t = .ok (v :: vs, rest) := by
  rw [items, h]
  dsimp only [bind, Except.bind]
  rw [skipSpace_of_not_isSpace (by decide)]
  dsimp only
  rw [if_neg (by decide), if_pos rfl, hrest]
  rfl

/-- Items with commas between them are read up to the closing bracket. -/
theorem items_join {ts : List Text} {vs : List Value} (h : List.Forall₂ Reads ts vs) (hne : ts ≠ [])
    (fuel : Nat) (rest : Text) (hfuel : 2 * (Text.join "," ts).length + 1 ≤ fuel) :
    items fuel (Text.join "," ts ++ (']' : CodePoint) :: rest) = .ok (vs, rest) := by
  induction h generalizing fuel with
  | nil => exact absurd rfl hne
  | @cons t v ts vs hv hvs ih =>
    obtain ⟨fuel, rfl⟩ : ∃ n, fuel = n + 1 := ⟨fuel - 1, by omega⟩
    cases hvs with
    | nil =>
      rw [join_singleton] at hfuel ⊢
      exact items_last (hv.value fuel _ (by omega) (ends_mark (by decide) rest))
    | @cons u w us ws hw hws =>
      obtain ⟨x, hx⟩ := join_eq_append u us
      have hskip : skipSpace (Text.join "," (u :: us) ++ (']' : CodePoint) :: rest) =
          Text.join "," (u :: us) ++ (']' : CodePoint) :: rest := by
        rw [hx, List.append_assoc]
        exact hw.skipSpace_eq _
      rw [join_cons_cons, List.length_append, List.length_cons] at hfuel
      rw [join_cons_cons, List.append_assoc]
      refine items_next (hv.value fuel _ (by omega) (ends_mark (by decide) _)) ?_
      rw [List.append_eq, hskip]
      exact ih (by simp) fuel (by omega)

/-- A row in brackets starts with a bracket of its own, and its fuel goes to what is in it. -/
theorem fuel_enclosed {opening closing : CodePoint} {inner : Text} {fuel : Nat}
    (h : 2 * ([opening] ++ inner ++ [closing]).length ≤ fuel) :
    ∃ n, fuel = n + 1 ∧ 2 * inner.length + 1 ≤ n := by
  simp only [List.length_append, List.length_singleton] at h
  exact ⟨fuel - 1, by omega, by omega⟩

theorem Reads.list {ts : List Text} {vs : List Value} (h : List.Forall₂ Reads ts vs) :
    Reads ([('[' : CodePoint)] ++ Text.join "," ts ++ [(']' : CodePoint)]) (.list vs) := by
  refine ⟨⟨'[', _, rfl, by decide, by decide⟩, fun fuel rest hfuel _ => ?_⟩
  obtain ⟨fuel, rfl, hinner⟩ := fuel_enclosed hfuel
  rw [List.append_assoc, List.append_assoc]
  show Json.value (fuel + 1) (('[' : CodePoint) :: (Text.join "," ts ++ (']' : CodePoint) :: rest)) = _
  rw [Json.value, if_neg (by decide), if_pos rfl]
  cases h with
  | nil =>
    have hempty : Text.join "," [] ++ (']' : CodePoint) :: rest = (']' : CodePoint) :: rest := rfl
    rw [hempty, skipSpace_of_not_isSpace (by decide)]
    rfl
  | @cons t v ts vs hv hvs =>
    have hitems := items_join (.cons hv hvs) (by simp) fuel rest hinner
    obtain ⟨x, hx⟩ := join_eq_append t ts
    rw [hx, List.append_assoc] at hitems ⊢
    rw [hv.skipSpace_eq]
    obtain ⟨c, u, rfl, -, hc⟩ := hv.start
    rw [List.cons_append] at hitems ⊢
    dsimp only
    rw [if_neg hc, hitems]
    rfl

/-! ### Objects -/

/-- A text is read as a member: a quoted key, a colon and a value. -/
def ReadsMember (t : Text) (m : Text × Value) : Prop :=
  ∃ asciiOnly key u, t = quote asciiOnly key ++ (':' : CodePoint) :: u ∧
    m.1 = reread asciiOnly key ∧ Reads u m.2

theorem expect_mark {c : CodePoint} (h : isSpace c = false) (t : Text) :
    expect c (c :: t) = .ok t := by
  rw [expect, skipSpace_of_not_isSpace h]
  exact if_pos rfl

theorem ReadsMember.skipSpace_eq {t : Text} {m : Text × Value} (h : ReadsMember t m) (rest : Text) :
    skipSpace (t ++ rest) = t ++ rest := by
  obtain ⟨asciiOnly, key, u, rfl, -, -⟩ := h
  exact skipSpace_of_not_isSpace (by decide) _

/-- Up to the value of a member that is there, reading goes on with the value. -/
theorem members_eq {t : Text} {m : Text × Value} (h : ReadsMember t m) (fuel : Nat)
    (hfuel : 2 * t.length ≤ fuel) (read : Members) {rest : Text} (hrest : Ends rest) :
    members (fuel + 1) read (t ++ rest) =
      match skipSpace rest with
      | [] => .error .malformed
      | c :: t =>
        if c = '\x7d' then .ok (read.insert m.1 m.2, t)
        else if c = ',' then members fuel (read.insert m.1 m.2) (skipSpace t)
        else .error .malformed := by
  obtain ⟨asciiOnly, key, u, rfl, hkey, hu⟩ := h
  rw [List.length_append, List.length_cons] at hfuel
  rw [members, List.append_assoc, quote_append, expect_mark (by decide)]
  dsimp only [bind, Except.bind]
  rw [quoted_body]
  dsimp only
  rw [List.cons_append, expect_mark (by decide)]
  dsimp only
  rw [hu.skipSpace_eq, hu.value fuel rest (by omega) hrest, hkey]
  rfl

/-- Members with commas between them are read up to the closing brace and set one by one. -/
theorem members_join {ts : List Text} {ms : Members} (h : List.Forall₂ ReadsMember ts ms)
    (hne : ts ≠ []) (fuel : Nat) (read : Members) (rest : Text)
    (hfuel : 2 * (Text.join "," ts).length + 1 ≤ fuel) :
    members fuel read (Text.join "," ts ++ ('\x7d' : CodePoint) :: rest) =
      .ok (read.overlay ms, rest) := by
  induction h generalizing fuel read with
  | nil => exact absurd rfl hne
  | @cons t m ts ms hm hms ih =>
    obtain ⟨fuel, rfl⟩ : ∃ n, fuel = n + 1 := ⟨fuel - 1, by omega⟩
    cases hms with
    | nil =>
      rw [join_singleton] at hfuel ⊢
      rw [members_eq hm fuel (by omega) read (ends_mark (by decide) rest),
        skipSpace_of_not_isSpace (by decide)]
      exact if_pos rfl
    | @cons u n us ns hn hns =>
      obtain ⟨x, hx⟩ := join_eq_append u us
      have hskip : skipSpace (Text.join "," (u :: us) ++ ('\x7d' : CodePoint) :: rest) =
          Text.join "," (u :: us) ++ ('\x7d' : CodePoint) :: rest := by
        rw [hx, List.append_assoc]
        exact hn.skipSpace_eq _
      rw [join_cons_cons, List.length_append, List.length_cons] at hfuel
      rw [join_cons_cons, List.append_assoc, List.cons_append,
        members_eq hm fuel (by omega) read (ends_mark (by decide) _),
        skipSpace_of_not_isSpace (by decide)]
      dsimp only
      rw [if_neg (by decide), if_pos rfl, hskip]
      exact ih (by simp) fuel _ (by omega)

theorem Reads.object {ts : List Text} {ms : Members} (h : List.Forall₂ ReadsMember ts ms) :
    Reads ([('\x7b' : CodePoint)] ++ Text.join "," ts ++ [('\x7d' : CodePoint)])
      (.object (Members.overlay [] ms)) := by
  refine ⟨⟨'\x7b', _, rfl, by decide, by decide⟩, fun fuel rest hfuel _ => ?_⟩
  obtain ⟨fuel, rfl, hinner⟩ := fuel_enclosed hfuel
  rw [List.append_assoc, List.append_assoc]
  show Json.value (fuel + 1)
    (('\x7b' : CodePoint) :: (Text.join "," ts ++ ('\x7d' : CodePoint) :: rest)) = _
  rw [Json.value, if_neg (by decide), if_neg (by decide), if_pos rfl]
  cases h with
  | nil =>
    show (match skipSpace (('\x7d' : CodePoint) :: rest) with
      | [] => (.error .malformed : Except ReadFault (Value × Text))
      | d :: rest => _) = _
    rw [skipSpace_of_not_isSpace (by decide)]
    rfl
  | @cons t m ts ms hm hms =>
    have hmembers := members_join (.cons hm hms) (by simp) fuel [] rest hinner
    obtain ⟨x, hx⟩ := join_eq_append t ts
    rw [hx, List.append_assoc] at hmembers ⊢
    rw [hm.skipSpace_eq]
    obtain ⟨asciiOnly, key, u, rfl, -, -⟩ := hm
    rw [List.append_assoc, quote_append] at hmembers ⊢
    dsimp only
    rw [if_neg (by decide), hmembers]
    rfl

end DocStore.Json
