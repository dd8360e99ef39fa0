import DocStore.Engine.Basic
import DocStore.Text.Basic
import Mathlib.Tactic.SplitIfs

/-!
SQL as the engines read it. A text is cut into words, signs, literals and
quoted names, by a machine that looks at one code point at a time, so that the
reading of a text put together from parts is put together from the readings of
the parts. The machine refuses what would be read by rules that are not among
its own: comments, literals with a prefix, and names in brackets.
-/

namespace DocStore

/-- A token of SQL. -/
inductive Token where
  /-- A keyword, a name without quotes or digits. -/
  | word (t : Text)
  | sign (c : CodePoint)
  /-- A string literal, as the text that it denotes. -/
  | literal (t : Text)
  /-- A quoted name, as the name that it denotes. -/
  | name (t : Text)
  deriving DecidableEq

/-- The lexical rules of an engine. -/
structure Lexis where
  /-- The marks that a literal stands between. -/
  literalMarks : List CodePoint
  /-- The marks that a name stands between. -/
  nameMarks : List CodePoint
  /-- Whether a backslash in a literal takes part in an escape. -/
  hasEscapes : Bool
  /-- The signs that begin a comment or a quotation of another form. -/
  foreign : List CodePoint

/-- The lexical rules of an engine whose literals have backslash escapes, or have not. -/
def Engine.lexisWith (engine : Engine) (hasEscapes : Bool) : Lexis :=
  match engine with
  | .mysql => ⟨['\'', '"'], ['`'], hasEscapes, ['#']⟩
  | .pgsql => ⟨['\''], ['"'], hasEscapes, ['$']⟩
  | .sqlite => ⟨['\''], ['"', '`'], hasEscapes, ['[']⟩

/-- Whether the literals of an engine have backslash escapes. -/
def Engine.hasEscapes : Engine → Bool
  | .mysql => true
  | .pgsql | .sqlite => false

/-- The lexical rules of an engine. -/
def Engine.lexis (engine : Engine) : Lexis := engine.lexisWith engine.hasEscapes

/-- What stands between two marks. -/
structure Quotation where
  mark : CodePoint
  isName : Bool
  deriving DecidableEq

/-- The token of a quotation. -/
def Quotation.token (q : Quotation) (t : Text) : Token := if q.isName then .name t else .literal t

namespace Lexis

/-- The quotation that a mark begins. -/
def quotation? (x : Lexis) (c : CodePoint) : Option Quotation :=
  if c ∈ x.literalMarks then some ⟨c, false⟩
  else if c ∈ x.nameMarks then some ⟨c, true⟩
  else none

/-- A code point that goes on with a word. -/
def isWordPart (c : CodePoint) : Bool :=
  Text.isAsciiLetter c || Text.isAsciiDigit c || c = '_' || 0x80 ≤ c.val

/-- A blank between tokens. -/
def isBlank (c : CodePoint) : Bool := c = ' ' || (0x09 ≤ c.val && c.val ≤ 0x0d)

/-- What a backslash and a code point stand for in a literal. -/
def unescape (c : CodePoint) : Text :=
  if c = '0' then [CodePoint.ofNat 0]
  else if c = 'b' then [CodePoint.ofNat 0x08]
  else if c = 't' then [CodePoint.ofNat 0x09]
  else if c = 'n' then [CodePoint.ofNat 0x0a]
  else if c = 'r' then [CodePoint.ofNat 0x0d]
  else if c = 'Z' then [CodePoint.ofNat 0x1a]
  else if c = '%' ∨ c = '_' then ['\\', c]
  else [c]

end Lexis

/-- What the reader is in the midst of. -/
inductive Mode where
  /-- Between tokens. -/
  | gap
  /-- After a sign that may be the first of a comment. -/
  | sign (c : CodePoint)
  /-- In a word. -/
  | word (t : Text)
  /-- In a quotation. -/
  | inside (q : Quotation) (t : Text)
  /-- In a quotation, after a backslash. -/
  | escaped (q : Quotation) (t : Text)
  /-- After a mark that closes a quotation unless another one follows. -/
  | closed (q : Quotation) (t : Text)
  /-- At something that is not read. -/
  | stuck
  deriving DecidableEq

namespace Mode

/-- The tokens that end where the text ends. -/
def flush : Mode → Option (List Token)
  | gap => some []
  | sign _ => some []
  | word t => some [.word t]
  | closed q t => some [q.token t]
  | inside .. => none
  | escaped .. => none
  | stuck => none

end Mode

namespace Lexis

variable (x : Lexis)

/-- Reads a code point with which a token may begin. -/
def start (c : CodePoint) : List Token × Mode :=
  match x.quotation? c with
  | some q => ([], .inside q [])
  | none =>
    if c ∈ x.foreign then ([], .stuck)
    else if isBlank c then ([], .gap)
    else if isWordPart c then ([], .word [c])
    else ([.sign c], if c = '-' ∨ c = '/' then .sign c else .gap)

/-- Reads a code point: the tokens that are then complete, and what comes next. -/
def step : Mode → CodePoint → List Token × Mode
  | .gap, c => x.start c
  | .sign d, c =>
    if d = '-' ∧ c = '-' ∨ d = '/' ∧ c = '*' then ([], .stuck) else x.start c
  | .word t, c =>
    if isWordPart c then ([], .word (t ++ [c]))
    else if (x.quotation? c).isSome then ([], .stuck)
    else (.word t :: (x.start c).1, (x.start c).2)
  | .inside q t, c =>
    if c = q.mark then ([], .closed q t)
    else if x.hasEscapes && !q.isName && c = '\\' then ([], .escaped q t)
    else ([], .inside q (t ++ [c]))
  | .escaped q t, c => ([], .inside q (t ++ unescape c))
  | .closed q t, c =>
    if c = q.mark then ([], .inside q (t ++ [c]))
    else (q.token t :: (x.start c).1, (x.start c).2)
  | .stuck, _ => ([], .stuck)

/-- Reads a text. -/
def scan : Mode → Text → List Token × Mode
  | m, [] => ([], m)
  | m, c :: t => ((x.step m c).1 ++ (scan (x.step m c).2 t).1, (scan (x.step m c).2 t).2)

/-- The tokens of a text, when it is read to its end. -/
def lex (t : Text) : Option (List Token) :=
  (x.scan .gap t).2.flush.map ((x.scan .gap t).1 ++ ·)

theorem scan_append (m : Mode) (s t : Text) :
    x.scan m (s ++ t) =
      ((x.scan m s).1 ++ (x.scan (x.scan m s).2 t).1, (x.scan (x.scan m s).2 t).2) := by
  induction s generalizing m with
  | nil => rfl
  | cons c s ih => simp only [List.cons_append, scan, ih, List.append_assoc]

@[simp] theorem lex_nil : x.lex [] = some [] := rfl

/-- A part that ends between tokens is read by itself, whatever follows. -/
theorem lex_append_of_gap {s : Text} {a : List Token} (h : x.scan .gap s = (a, .gap)) (t : Text) :
    x.lex (s ++ t) = (x.lex t).map (a ++ ·) := by
  simp only [lex, scan_append, h, Option.map_map]
  congr 1
  funext b
  simp

/-- A code point that ends whatever token stands before it. -/
def isSeparator (c : CodePoint) : Bool :=
  (x.quotation? c).isNone && c ∉ x.foreign && !isWordPart c && c ≠ '-' && c ≠ '*'

/-- Before a separator it makes no difference whether a token is still to be ended. -/
theorem step_separator {m : Mode} {b : List Token} {c : CodePoint} (hm : m.flush = some b)
    (hq : ∀ q t, m = .closed q t → (x.quotation? q.mark).isSome) (hc : x.isSeparator c = true) :
    x.step m c = (b ++ (x.start c).1, (x.start c).2) := by
  simp only [isSeparator, Bool.and_eq_true, Bool.not_eq_true', decide_eq_true_eq] at hc
  obtain ⟨⟨⟨⟨hnone, -⟩, hword⟩, hdash⟩, hstar⟩ := hc
  cases m with
  | gap => simp_all [Mode.flush, step]
  | sign d => simp_all [Mode.flush, step]
  | word t =>
    obtain rfl : [Token.word t] = b := by simpa [Mode.flush] using hm
    simp [step, hword, hnone]
  | closed q t =>
    have hne : c ≠ q.mark := by
      rintro rfl
      have := hq q t rfl
      simp_all
    obtain rfl : [q.token t] = b := by simpa [Mode.flush] using hm
    simp [step, hne]
  | inside q t => simp [Mode.flush] at hm
  | escaped q t => simp [Mode.flush] at hm
  | stuck => simp [Mode.flush] at hm

/-- Quotations are only ever those that their marks begin. -/
def IsProper : Mode → Prop
  | .inside q _ => x.quotation? q.mark = some q
  | .escaped q _ => x.quotation? q.mark = some q
  | .closed q _ => x.quotation? q.mark = some q
  | _ => True

theorem mark_of_quotation? {c : CodePoint} {q : Quotation} (h : x.quotation? c = some q) :
    q.mark = c := by
  unfold quotation? at h
  split at h
  · cases h; rfl
  · split at h
    · cases h; rfl
    · cases h

theorem proper_start (c : CodePoint) : x.IsProper (x.start c).2 := by
  unfold start
  split
  next q hq =>
    simp only [IsProper]
    rw [x.mark_of_quotation? hq, hq]
  next => split_ifs <;> trivial

theorem proper_step {m : Mode} (hm : x.IsProper m) (c : CodePoint) :
    x.IsProper (x.step m c).2 := by
  cases m with
  | gap => exact x.proper_start c
  | sign d =>
    simp only [step]
    split_ifs
    · trivial
    · exact x.proper_start c
  | word t =>
    simp only [step]
    split_ifs
    · trivial
    · trivial
    · exact x.proper_start c
  | inside q t =>
    simp only [step]
    split_ifs <;> exact hm
  | escaped q t => exact hm
  | closed q t =>
    simp only [step]
    split_ifs
    · exact hm
    · exact x.proper_start c
  | stuck => trivial

theorem proper_scan {m : Mode} (hm : x.IsProper m) (t : Text) :
    x.IsProper (x.scan m t).2 := by
  induction t generalizing m with
  | nil => exact hm
  | cons c t ih => exact ih (x.proper_step hm c)

/-- A part that is complete is read by itself when a separator follows it. -/
theorem lex_append_of_separator {s t : Text} {c : CodePoint} {a : List Token}
    (h : x.lex s = some a) (hc : x.isSeparator c = true) :
    x.lex (s ++ c :: t) = (x.lex (c :: t)).map (a ++ ·) := by
  obtain ⟨b, hb, rfl⟩ := Option.map_eq_some_iff.mp h
  have hproper : x.IsProper (x.scan .gap s).2 := x.proper_scan (m := .gap) trivial s
  have hstep := x.step_separator hb (by
    intro q t hq
    rw [hq] at hproper
    simp [show x.quotation? q.mark = some q from hproper]) hc
  simp only [lex, scan_append, scan, hstep, Option.map_map]
  congr 1
  funext d
  simp [step]

end Lexis

end DocStore
