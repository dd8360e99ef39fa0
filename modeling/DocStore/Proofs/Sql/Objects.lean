import DocStore.Proofs.Number.Numeral
import DocStore.Proofs.Sql.Form
import DocStore.Proofs.Sql.Quoted

/-!
The objects that SQL names. The names of tables and indexes come right after one
of a few keywords, with their marks or without them, and with commas between
them where there are several. Nothing else that stands in a statement is such a
name, and most of what is put into one is quiet: no name comes after it that
would not be one without it.
-/

namespace DocStore

namespace Token

/-- The keywords that names of tables and indexes come after. -/
def introducers : List Text :=
  ["TABLE", "INDEX", "EXISTS", "ON", "FROM", "JOIN", "INTO", "UPDATE", "ONLY", "USING", "TRUNCATE",
    "REFERENCES"]

/-- Whether the name of a table or of an index may come after a token. -/
def introduces (t : Token) : Bool := introducers.any fun keyword => t.isKeyword keyword

/-- The name that a token is, given the token after it. A word before a parenthesis is the name of a
function, and `IF` is a keyword. -/
def named? (t : Token) (next : Option Token) : Option Text :=
  match t with
  | .name n => some n
  | .word w => if t.isKeyword "IF" || next = some (.sign '(') then none else some w
  | _ => none

/-- The names that tokens begin with, with commas between them. -/
def leading : List Token → List Text
  | [] => []
  | [t] => (t.named? none).toList
  | t :: next :: ts =>
    (t.named? (some next)).toList ++ if next = .sign ',' then leading ts else []

/-- The tables and indexes that tokens name, in order. -/
def objects : List Token → List Text
  | [] => []
  | t :: ts => (if t.introduces then leading ts else []) ++ objects ts

/-- Tokens before others name nothing and change nothing about what the others name. -/
def AreQuiet (ts : List Token) : Prop := ∀ us, objects (ts ++ us) = objects us

theorem introduces_sign (c : CodePoint) : (sign c).introduces = false := by
  simp [introduces, isKeyword]

theorem introduces_literal (t : Text) : (literal t).introduces = false := by
  simp [introduces, isKeyword]

theorem introduces_name (t : Text) : (name t).introduces = false := by
  simp [introduces, isKeyword]

theorem objects_cons_of_not {t : Token} (h : t.introduces = false) (ts : List Token) :
    objects (t :: ts) = objects ts := by
  simp [objects, h]

namespace AreQuiet

variable {ts us : List Token}

theorem nil : AreQuiet [] := fun _ => rfl

theorem append (ht : AreQuiet ts) (hu : AreQuiet us) : AreQuiet (ts ++ us) := fun vs => by
  rw [List.append_assoc, ht, hu]

theorem of_forall (h : ∀ t ∈ ts, t.introduces = false) : AreQuiet ts := by
  induction ts with
  | nil => exact nil
  | cons t ts ih =>
    obtain ⟨ht, hts⟩ := List.forall_mem_cons.mp h
    intro us
    rw [List.cons_append, objects_cons_of_not ht, ih hts]

end AreQuiet

/-- No keyword is written with the characters of a number. -/
theorem IsNumeric.introduces_eq {t : Token} (h : t.IsNumeric) : t.introduces = false := by
  cases t with
  | word t =>
    obtain ⟨cs, hcs, rfl⟩ := h
    have hletter : ∀ keyword ∈ introducers, ∃ u ∈ keyword, u ∈ ("TXOUR" : Text) := by decide +kernel
    have hother : ∀ c ∈ numeralChars, (CodePoint.ofChar c).asciiUpper ∉ ("TXOUR" : Text) :=
      forall_numeralChars (by decide)
    refine List.any_eq_false.mpr fun keyword hkeyword hword => ?_
    obtain ⟨u, hu, hmem⟩ := hletter keyword hkeyword
    rw [← of_decide_eq_true hword, List.map_map] at hu
    obtain ⟨c, hc, rfl⟩ := List.mem_map.mp hu
    exact hother c (hcs c hc) hmem
  | sign c => exact introduces_sign c
  | literal t => exact h.elim
  | name t => exact h.elim

end Token

/-- The tables and indexes that a text names, when an engine reads it to its end. -/
def Engine.objects? (e : Engine) (t : Text) : Option (List Text) :=
  (e.lexis.lex t).map Token.objects

/-- A text is read to its end, and names no objects but some given ones. -/
def Engine.NamesOnly (e : Engine) (own : List Text) (t : Text) : Prop :=
  ∃ found, e.objects? t = some found ∧ found ⊆ own

/-- A piece names nothing, and changes nothing about what the pieces after it name. -/
def Piece.IsQuiet (x : Lexis) (p : Piece) : Prop := Token.AreQuiet (p.tokens x)

namespace Piece

variable {x : Lexis} {t : Text}

theorem isQuiet_literal (h : (literal t).IsValid x) : (literal t).IsQuiet x := by
  obtain ⟨u, hu⟩ := h
  refine Token.AreQuiet.of_forall ?_
  simp [tokens, text, hu, Token.introduces_literal]

theorem isQuiet_identifier (h : (identifier t).IsValid x) : (identifier t).IsQuiet x := by
  obtain ⟨u, hu⟩ := h
  refine Token.AreQuiet.of_forall ?_
  simp [tokens, text, hu, Token.introduces_name]

theorem isQuiet_column (e : Engine) (name : Text) :
    (identifier (quoteName e.nameMark name)).IsQuiet e.lexis :=
  isQuiet_identifier ⟨name, e.lex_quoteName e.hasEscapes name⟩

theorem isQuiet_numeral {cs : List Char} (h : IsNumeral cs) (e : Engine) :
    (number (cs.map CodePoint.ofChar)).IsQuiet e.lexis := by
  obtain ⟨ts, hts, -, hnumeric, -⟩ := h.lex e e.hasEscapes
  refine Token.AreQuiet.of_forall fun t ht => (hnumeric t ?_).introduces_eq
  simpa [tokens, text, Engine.lexis, hts] using ht

theorem isQuiet_display (e : Engine) (n : Number) : (number n.display).IsQuiet e.lexis := by
  obtain ⟨cs, hcs, h⟩ := n.isNumeral_display
  rw [h]
  exact isQuiet_numeral hcs e

end Piece

namespace Sql

/-- A row of pieces that name nothing, and change nothing about what comes after them. -/
def IsQuiet (x : Lexis) (s : Sql) : Prop := ∀ p ∈ s, p.IsQuiet x

variable {x : Lexis} {s t : Sql}

theorem IsQuiet.tokens (h : s.IsQuiet x) : Token.AreQuiet (s.tokens x) := by
  induction s with
  | nil => exact .nil
  | cons p s ih =>
    obtain ⟨hp, hs⟩ := List.forall_mem_cons.mp h
    rw [tokens_cons]
    exact Token.AreQuiet.append hp (ih hs)

@[simp] theorem isQuiet_append : (s ++ t).IsQuiet x ↔ s.IsQuiet x ∧ t.IsQuiet x :=
  List.forall_mem_append

end Sql

end DocStore
