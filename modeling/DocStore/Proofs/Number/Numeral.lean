import DocStore.Number.Basic
import DocStore.Proofs.Sql.Outline
import Mathlib.Data.List.Chain
import Mathlib.Tactic.IntervalCases

/-!
Numbers without quotes. The text of a number is made of digits, points, signs
and a few letters, so it can neither open nor close anything in the SQL that it
stands in, nor begin a comment.
-/

namespace DocStore

/-- The characters that numbers are written with. -/
def numeralChars : List Char :=
  ['0', '1', '2', '3', '4', '5', '6', '7', '8', '9', '.', 'e', '+', '-', 'i', 'n', 'f', 'a']

theorem forall_numeralChars {P : Char → Prop} [DecidablePred P]
    (h : numeralChars.all (fun c => decide (P c)) = true) : ∀ c ∈ numeralChars, P c := by
  intro c hc
  exact of_decide_eq_true (List.all_eq_true.mp h c hc)

/-- Characters that may write a number: no minus sign stands next to another one. -/
structure IsNumeral (cs : List Char) : Prop where
  ne_nil : cs ≠ []
  mem : ∀ c ∈ cs, c ∈ numeralChars
  dashes : cs.IsChain fun c d => ¬(c = '-' ∧ d = '-')

theorem mem_numeralChars_of_isDigit {c : Char} (h : c.isDigit = true) : c ∈ numeralChars := by
  simp only [Char.isDigit, Bool.and_eq_true, decide_eq_true_eq] at h
  obtain ⟨hlow, hhigh⟩ := h
  have hlow' : 48 ≤ c.toNat := hlow
  have hhigh' : c.toNat ≤ 57 := hhigh
  rw [← Char.ofNat_toNat c]
  generalize c.toNat = n at hlow' hhigh'
  interval_cases n <;> decide

/-- Characters of a number none of which is a minus sign. -/
def Dashless (cs : List Char) : Prop := ∀ c ∈ cs, c ∈ numeralChars ∧ c ≠ '-'

namespace Dashless

theorem append {cs ds : List Char} (hc : Dashless cs) (hd : Dashless ds) : Dashless (cs ++ ds) :=
  fun c hmem => (List.mem_append.mp hmem).elim (hc c) (hd c)

theorem mono {cs ds : List Char} (hd : Dashless ds) (h : cs ⊆ ds) : Dashless cs :=
  fun c hmem => hd c (h hmem)

theorem replicate_zero (n : Nat) : Dashless (List.replicate n '0') := by
  intro c hc
  obtain rfl := List.eq_of_mem_replicate hc
  decide

theorem toDigits (n : Nat) : Dashless (Nat.toDigits 10 n) := by
  intro c hc
  have hdigit := Nat.isDigit_of_mem_toDigits (by omega) (by omega) hc
  refine ⟨mem_numeralChars_of_isDigit hdigit, ?_⟩
  rintro rfl
  revert hdigit
  decide

theorem isNumeral {cs : List Char} (hne : cs ≠ []) (hc : Dashless cs) : IsNumeral cs := by
  refine ⟨hne, fun c hmem => (hc c hmem).1, List.Pairwise.isChain ?_⟩
  exact List.pairwise_of_forall_mem_list fun c hmem _ _ h => (hc c hmem).2 h.1

theorem head?_ne {cs : List Char} (hc : Dashless cs) : cs.head? ≠ some '-' :=
  fun h => (hc _ (List.mem_of_mem_head? h)).2 rfl

end Dashless

theorem IsNumeral.append {cs ds : List Char} (hc : IsNumeral cs) (hd : IsNumeral ds)
    (h : cs.getLast? = some '-' → ds.head? ≠ some '-') : IsNumeral (cs ++ ds) := by
  refine ⟨by simp [hc.ne_nil], ?_, ?_⟩
  · intro c hmem
    exact (List.mem_append.mp hmem).elim (hc.mem c) (hd.mem c)
  · refine List.isChain_append.mpr ⟨hc.dashes, hd.dashes, ?_⟩
    rintro c hlast d hhead ⟨rfl, rfl⟩
    exact h hlast hhead

/-! ### The texts of numbers -/

namespace Binary64

theorem dropZeros_subset (digits : List Char) (k : Int) : (dropZeros digits k).1 ⊆ digits := by
  intro c hc
  simp only [dropZeros, List.mem_reverse] at hc
  simpa using (List.dropWhile_sublist _).subset hc

/-- Digits with an exponent after them. -/
theorem isNumeral_exponent {ds size : List Char} {sign : Char} (hds : Dashless ds)
    (hsize : Dashless size) (hne : size ≠ []) (hsign : sign ∈ numeralChars) :
    IsNumeral (ds ++ ['e', sign] ++ size) ∧ (ds ++ ['e', sign] ++ size).head? ≠ some '-' := by
  have he : Dashless (ds ++ ['e']) := hds.append (by simp [Dashless, numeralChars])
  have hone : IsNumeral [sign] := ⟨by simp, by simpa using hsign, .singleton sign⟩
  have htail : IsNumeral ([sign] ++ size) :=
    hone.append (hsize.isNumeral hne) fun _ => hsize.head?_ne
  have hall : IsNumeral ((ds ++ ['e']) ++ ([sign] ++ size)) :=
    (he.isNumeral (by simp)).append htail (by simp)
  constructor
  · simpa using hall
  · cases ds with
    | nil => simp
    | cons d ds => simpa using (hds d (by simp)).2

/-- The magnitude of a number does not begin with a sign, and its exponent has one sign. -/
theorem isNumeral_layout (n : Nat) (k : Int) :
    IsNumeral (layout n k) ∧ (layout n k).head? ≠ some '-' := by
  have hds : Dashless (dropZeros (Nat.toDigits 10 n) k).1 :=
    (Dashless.toDigits n).mono (dropZeros_subset _ _)
  have hpoint : Dashless ['.'] := by simp [Dashless, numeralChars]
  have hzero : Dashless ['0'] := by simp [Dashless, numeralChars]
  have hboth {cs : List Char} (h : Dashless cs) (hne : cs ≠ []) :
      IsNumeral cs ∧ cs.head? ≠ some '-' := ⟨h.isNumeral hne, h.head?_ne⟩
  simp only [layout]
  generalize dropZeros (Nat.toDigits 10 n) k = digits at hds ⊢
  obtain ⟨ds, k⟩ := digits
  dsimp only at hds ⊢
  split
  · have hsize (m : Nat) : Dashless (if (Nat.toDigits 10 m).length < 2
        then '0' :: Nat.toDigits 10 m else Nat.toDigits 10 m) := by
      split
      · exact hzero.append (.toDigits m)
      · exact .toDigits m
    refine isNumeral_exponent ?_ (hsize _) ?_ ?_
    · refine (hds.mono (List.take_subset 1 ds)).append ?_
      split
      · exact fun c hc => nomatch hc
      · exact hpoint.append (hds.mono (List.drop_subset 1 ds))
    · split <;> simp [Nat.toDigits_ne_nil]
    · split <;> decide
  · split
    · exact hboth (((hzero.append hpoint).append (.replicate_zero _)).append hds) (by simp)
    · split
      · exact hboth ((hds.append (.replicate_zero _)).append (hpoint.append hzero)) (by simp)
      · exact hboth ((hds.mono (List.take_subset _ ds)).append
          (hpoint.append (hds.mono (List.drop_subset _ ds)))) (by simp)

end Binary64

/-- The characters that an integer is written with. -/
theorem isNumeral_ofInt (n : Int) : ∃ cs, IsNumeral cs ∧ Text.ofInt n = cs.map CodePoint.ofChar := by
  cases n with
  | ofNat n => exact ⟨_, (Dashless.toDigits n).isNumeral Nat.toDigits_ne_nil, rfl⟩
  | negSucc n =>
    have hone : IsNumeral ['-'] := ⟨by simp, by simp [numeralChars], .singleton '-'⟩
    exact ⟨['-'] ++ Nat.toDigits 10 (n + 1),
      hone.append ((Dashless.toDigits _).isNumeral Nat.toDigits_ne_nil)
        fun _ => (Dashless.toDigits _).head?_ne, rfl⟩

/-- The characters that a number is written with in SQL. -/
theorem Number.isNumeral_display (n : Number) :
    ∃ cs, IsNumeral cs ∧ n.display = cs.map CodePoint.ofChar := by
  have hsigned {cs : List Char} (b : Bool) (h : IsNumeral cs) (hhead : cs.head? ≠ some '-') :
      IsNumeral ((if b then ['-'] else []) ++ cs) := by
    cases b with
    | false => exact h
    | true =>
      have hone : IsNumeral ['-'] := ⟨by simp, by simp [numeralChars], .singleton '-'⟩
      exact hone.append h fun _ => hhead
  have hword {cs : List Char} (hne : cs ≠ []) (h : Dashless cs) :
      IsNumeral cs ∧ cs.head? ≠ some '-' := ⟨h.isNumeral hne, h.head?_ne⟩
  have hinf : Dashless ['i', 'n', 'f'] := by simp [Dashless, numeralChars]
  have hnan : Dashless ['n', 'a', 'n'] := by simp [Dashless, numeralChars]
  cases n with
  | int n => exact isNumeral_ofInt n
  | float x =>
    cases x with
    | nan => exact ⟨_, (hword (by simp) hnan).1, rfl⟩
    | infinite b =>
      refine ⟨_, hsigned b (hword (by simp) hinf).1 (hword (by simp) hinf).2, ?_⟩
      cases b <;> rfl
    | finite b m e h =>
      have hmagnitude : ∃ cs, IsNumeral cs ∧ cs.head? ≠ some '-' ∧
          Binary64.finiteText b m e = ((if b then ['-'] else []) ++ cs).map CodePoint.ofChar := by
        by_cases hm : m = 0
        · refine ⟨['0', '.', '0'], ?_, by decide, by simp [Binary64.finiteText, hm]⟩
          exact Dashless.isNumeral (by simp) (by simp [Dashless, numeralChars])
        · obtain ⟨hlayout, hhead⟩ :=
            Binary64.isNumeral_layout (Binary64.shortest m e).1 (Binary64.shortest m e).2
          exact ⟨_, hlayout, hhead, by simp [Binary64.finiteText, hm]⟩
      obtain ⟨cs, hcs, hhead, htext⟩ := hmagnitude
      exact ⟨_, hsigned b hcs hhead, htext⟩

/-! ### Reading them -/

/-- A token that is made of characters of a number. -/
def Token.IsNumeric : Token → Prop
  | .word t => ∃ cs : List Char, (∀ c ∈ cs, c ∈ numeralChars) ∧ t = cs.map CodePoint.ofChar
  | .sign c => ∃ d ∈ numeralChars, c = CodePoint.ofChar d
  | _ => False

/-- The text of a token; quotations are not looked into. -/
def Token.text : Token → Text
  | .word t => t
  | .sign c => [c]
  | .literal _ => []
  | .name _ => []

/-- The text of the word that a reader is in the midst of. -/
def Mode.pending : Mode → Text
  | .word t => t
  | _ => []

theorem Token.IsNumeric.isInert {t : Token} (h : t.IsNumeric) : t.isInert = true := by
  cases t with
  | word t =>
    obtain ⟨cs, hcs, rfl⟩ := h
    -- every keyword has a letter that no number has
    have hupper : ∀ c ∈ numeralChars, (CodePoint.ofChar c).asciiUpper ≠ 'D' ∧
        (CodePoint.ofChar c).asciiUpper ≠ 'O' := forall_numeralChars (by decide)
    have hne (keyword : Text) (hk : ('D' : CodePoint) ∈ keyword ∨ ('O' : CodePoint) ∈ keyword) :
        (cs.map CodePoint.ofChar).map CodePoint.asciiUpper ≠ keyword := by
      rintro rfl
      obtain hk | hk := hk
      · obtain ⟨_, hu, hd⟩ := List.mem_map.mp hk
        obtain ⟨c, hc, rfl⟩ := List.mem_map.mp hu
        exact (hupper c (hcs c hc)).1 hd
      · obtain ⟨_, hu, ho⟩ := List.mem_map.mp hk
        obtain ⟨c, hc, rfl⟩ := List.mem_map.mp hu
        exact (hupper c (hcs c hc)).2 ho
    have hand := hne "AND" (by decide)
    have hor := hne "OR" (by decide)
    have hnot := hne "NOT" (by decide)
    simp only [Token.isInert, Token.isJunction, Token.isNegation, Token.isKeyword, hand, hor, hnot]
    simp
  | sign c =>
    obtain ⟨d, hd, rfl⟩ := h
    revert d
    exact forall_numeralChars (by decide)
  | literal t => exact h.elim
  | name t => exact h.elim

namespace Lexis

/-- How a character of a number is read: it goes on with a word or stands by itself. -/
theorem start_numeral (e : Engine) (b : Bool) {c : Char} (hc : c ∈ numeralChars) :
    (e.lexisWith b).start c =
        (if isWordPart c then ([], .word [c]) else ([.sign c], if c = '-' then .sign c else .gap)) ∧
      (e.lexisWith b).quotation? c = none := by
  revert c
  apply forall_numeralChars
  cases e <;> cases b <;> decide

/-- Where the characters of a number may go on. -/
inductive Ready (cs : List Char) : Mode → Prop
  | gap : Ready cs .gap
  | sign (h : cs.head? ≠ some '-') : Ready cs (.sign '-')
  | word {w : List Char} (h : ∀ c ∈ w, c ∈ numeralChars) : Ready cs (.word (w.map CodePoint.ofChar))

variable (e : Engine) (b : Bool)

theorem start_ready {c : Char} {cs : List Char} (hc : c ∈ numeralChars)
    (hdash : ¬(c = '-' ∧ cs.head? = some '-')) :
    (∀ u ∈ ((e.lexisWith b).start c).1, u.IsNumeric) ∧ Ready cs ((e.lexisWith b).start c).2 ∧
      ((e.lexisWith b).start c).1.flatMap Token.text ++ ((e.lexisWith b).start c).2.pending =
        [CodePoint.ofChar c] := by
  rw [(start_numeral e b hc).1]
  split
  · refine ⟨by simp, ?_, rfl⟩
    exact Ready.word (w := [c]) (by simpa using hc)
  · refine ⟨by simpa [Token.IsNumeric] using ⟨c, hc, rfl⟩, ?_, by split <;> rfl⟩
    split
    next h =>
      subst h
      exact .sign fun h => hdash ⟨rfl, h⟩
    next => exact .gap

/-- A character of a number is read without being lost. -/
theorem step_ready {c : Char} {cs : List Char} {m : Mode} (hm : Ready (c :: cs) m)
    (hc : c ∈ numeralChars) (hdash : ¬(c = '-' ∧ cs.head? = some '-')) :
    (∀ u ∈ ((e.lexisWith b).step m c).1, u.IsNumeric) ∧ Ready cs ((e.lexisWith b).step m c).2 ∧
      ((e.lexisWith b).step m c).1.flatMap Token.text ++ ((e.lexisWith b).step m c).2.pending =
        m.pending ++ [CodePoint.ofChar c] := by
  cases hm with
  | gap => exact start_ready e b hc hdash
  | sign h =>
    have hdashes : ∀ d ∈ numeralChars, CodePoint.ofChar d = '-' → d = '-' :=
      forall_numeralChars (by decide)
    have hne : ¬(CodePoint.ofChar c = '-') := fun heq => h (by rw [hdashes c hc heq]; rfl)
    rw [step, if_neg (by simp [hne, show ('-' : CodePoint) ≠ '/' by decide])]
    exact start_ready e b hc hdash
  | @word w hw =>
    obtain ⟨-, hquote⟩ := start_numeral e b hc
    simp only [step]
    split
    · refine ⟨by simp, ?_, rfl⟩
      have : w.map CodePoint.ofChar ++ [CodePoint.ofChar c] = (w ++ [c]).map CodePoint.ofChar := by
        simp
      rw [this]
      exact .word fun d hd => (List.mem_append.mp hd).elim (hw d) (by rintro (_ | ⟨_, ⟨⟩⟩); exact hc)
    · rw [if_neg (by simp [hquote])]
      obtain ⟨htokens, hready, htext⟩ := start_ready e b hc hdash
      refine ⟨?_, hready, by rw [List.flatMap_cons, List.append_assoc, htext]; rfl⟩
      intro u hu
      obtain rfl | hu := List.mem_cons.mp hu
      · exact ⟨w, hw, rfl⟩
      · exact htokens u hu

theorem scan_numeral {cs : List Char} {m : Mode} (hm : Ready cs m)
    (hmem : ∀ c ∈ cs, c ∈ numeralChars)
    (hdashes : cs.IsChain fun c d => ¬(c = '-' ∧ d = '-')) :
    ∃ a d m', (e.lexisWith b).scan m (cs.map CodePoint.ofChar) = (a, m') ∧
      m'.flush = some d ∧ (∀ u ∈ a ++ d, u.IsNumeric) ∧
      (a ++ d).flatMap Token.text = m.pending ++ cs.map CodePoint.ofChar := by
  induction cs generalizing m with
  | nil =>
    cases hm with
    | gap => exact ⟨[], [], _, rfl, rfl, by simp, rfl⟩
    | sign h => exact ⟨[], [], _, rfl, rfl, by simp, rfl⟩
    | @word w hw => exact ⟨[], [.word _], _, rfl, rfl, by simpa [Token.IsNumeric] using ⟨w, hw, rfl⟩,
        by simp [Token.text, Mode.pending]⟩
  | cons c cs ih =>
    obtain ⟨hc, hcs⟩ := List.forall_mem_cons.mp hmem
    have hdash : ¬(c = '-' ∧ cs.head? = some '-') := by
      rintro ⟨rfl, hhead⟩
      obtain ⟨d, cs⟩ := cs
      · cases hhead
      · cases hhead
        cases hdashes with
        | cons_cons h _ => exact h ⟨rfl, rfl⟩
    obtain ⟨htokens, hready, hstep⟩ := step_ready e b hm hc hdash
    obtain ⟨a, d, m', hscan, hflush, hnumeric, htext⟩ := ih hready hcs hdashes.tail
    refine ⟨((e.lexisWith b).step m c).1 ++ a, d, m', ?_, hflush, ?_, ?_⟩
    · simp [scan, hscan]
    · intro u hu
      rw [List.append_assoc] at hu
      exact (List.mem_append.mp hu).elim (htokens u) (hnumeric u)
    · rw [List.append_assoc, List.flatMap_append, htext, ← List.append_assoc, hstep]
      simp

end Lexis

/-- The tokens of a number, which have its characters in them. -/
theorem IsNumeral.lex {cs : List Char} (h : IsNumeral cs) (e : Engine) (b : Bool) :
    ∃ ts, (e.lexisWith b).lex (cs.map CodePoint.ofChar) = some ts ∧ ts ≠ [] ∧
      (∀ t ∈ ts, t.IsNumeric) ∧ ts.flatMap Token.text = cs.map CodePoint.ofChar := by
  obtain ⟨a, d, m, hscan, hflush, hnumeric, htext⟩ :=
    Lexis.scan_numeral e b (.gap : Lexis.Ready cs .gap) h.mem h.dashes
  refine ⟨a ++ d, by simp [Lexis.lex, hscan, hflush], ?_, hnumeric, htext⟩
  intro hnil
  rw [hnil] at htext
  exact h.ne_nil (by simpa [Mode.pending] using htext.symm)

/-- The text of a number is a valid piece, by the rules of every engine. -/
theorem IsNumeral.isValid {cs : List Char} (h : IsNumeral cs) (e : Engine) (b : Bool) :
    (Piece.number (cs.map CodePoint.ofChar)).IsValid (e.lexisWith b) := by
  obtain ⟨ts, hts, hne, hnumeric, -⟩ := h.lex e b
  exact ⟨ts, hts, hne, fun u hu => (hnumeric u hu).isInert⟩

end DocStore
