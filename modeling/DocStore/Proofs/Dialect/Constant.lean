import DocStore.Proofs.Dialect.Literal
import DocStore.Proofs.Sql.Comparison

/-!
Scalars as tokens. Whatever a scalar is, its literal is one constant or the few
tokens of a number, and may be an item of a list.
-/

namespace DocStore

open Comparison

theorem Token.IsNumeric.isPlain {t : Token} (h : t.IsNumeric) :
    isParenthesis t = false ∧ t ≠ .sign ',' ∧ mayFollow [t] = true := by
  cases t with
  | sign c =>
    obtain ⟨d, hd, rfl⟩ := h
    revert d
    exact forall_numeralChars (by decide)
  | word t => simp [isParenthesis, mayFollow]
  | literal t => exact h.elim
  | name t => exact h.elim

theorem isItem_numeric {ts : List Token} (hne : ts ≠ []) (h : ∀ t ∈ ts, t.IsNumeric) : IsItem ts where
  mayFollow := by
    obtain ⟨t, ts, rfl⟩ := List.exists_cons_of_ne_nil hne
    have := (h t (by simp)).isPlain.2.2
    cases t <;> exact this
  plain t ht := ⟨(h t ht).isPlain.1, (h t ht).isPlain.2.1⟩
  inert t ht := (h t ht).isInert

theorem isItem_literal (t : Text) : IsItem [.literal t] where
  mayFollow := rfl
  plain := by simp [isParenthesis]
  inert := by simp [Token.isInert, Token.isJunction, Token.isNegation, Token.isKeyword]

/-- SQL without quotes that stands for itself: its tokens may be an item of a list, are no quotation,
and have the text in them. -/
structure Sql.IsBare (x : Lexis) (s : Sql) (t : Text) : Prop where
  isItem : IsItem (s.tokens x)
  ne_literal : ∀ u, s.tokens x ≠ [.literal u]
  text : (s.tokens x).flatMap Token.text = t

theorem Sql.IsBare.of_word {x : Lexis} {s : Sql} {t : Text} (h : s.tokens x = [.word t])
    (hinert : (Token.word t).isInert = true) : s.IsBare x t where
  isItem := by
    rw [h]
    exact ⟨rfl, by simp [isParenthesis], by simpa using hinert⟩
  ne_literal u := by simp [h]
  text := by simp [h, Token.text]

theorem Number.isBare_display (n : Number) (e : Engine) (b : Bool) :
    Sql.IsBare (e.lexisWith b) [.number n.display] n.display := by
  obtain ⟨cs, hcs, hdisplay⟩ := n.isNumeral_display
  obtain ⟨ts, hts, hne, hnumeric, htext⟩ := hcs.lex e b
  have htokens : Sql.tokens (e.lexisWith b) [.number n.display] = ts := by
    simp [Sql.tokens, Piece.tokens, Piece.text, hdisplay, hts]
  refine ⟨htokens ▸ isItem_numeric hne hnumeric, ?_, by rw [htokens, htext, hdisplay]⟩
  rintro u hu
  rw [htokens] at hu
  exact hnumeric (.literal u) (by simp [hu])

namespace Dialect

/-- How a scalar is spelled: whether in quotes, and by which text. -/
def spelling (d : Dialect) : Value → Option (Bool × Text)
  | .null => some (false, "NULL")
  | .bool c =>
    if d.hasBareNumbers then some (false, if c then "1" else "0")
    else some (true, if c then "true" else "false")
  | .int n => some (!d.hasBareNumbers, (Number.int n).display)
  | .float x => some (!d.hasBareNumbers, (Number.float x).display)
  | .str t => some (true, t)
  | _ => none

variable {d : Dialect} {b : Bool}

/-- The literal of a scalar is what the scalar is spelled by, in quotes or bare. -/
theorem literal_spelled (b : Bool) {v : Value} {l : Sql} (h : d.literal v = .ok l) :
    ∃ isQuoted t, d.spelling v = some (isQuoted, t) ∧
      if isQuoted then d.quoted t = .ok l else l.IsBare (d.engine.lexisWith b) t := by
  have hnumber {n : Number} {l : Sql} (h : d.numberLiteral n = .ok l) :
      if !d.hasBareNumbers then d.quoted n.display = .ok l
      else l.IsBare (d.engine.lexisWith b) n.display := by
    unfold numberLiteral at h
    cases hbare : d.hasBareNumbers
    · simpa [hbare] using h
    · rw [if_pos hbare] at h
      cases h
      exact n.isBare_display d.engine b
  cases v with
  | null =>
    cases h
    exact ⟨false, _, rfl, .of_word (by cases d.engine <;> rfl) (by decide)⟩
  | bool c =>
    simp only [literal, truthLiteral, spelling] at h ⊢
    split at h
    next hbare =>
      cases h
      rw [if_pos hbare]
      refine ⟨false, _, rfl, .of_word (by cases d.engine <;> cases c <;> rfl) ?_⟩
      cases c <;> decide
    next hbare =>
      rw [if_neg hbare]
      exact ⟨true, _, rfl, h⟩
  | int n => exact ⟨_, _, rfl, hnumber h⟩
  | float x => exact ⟨_, _, rfl, hnumber h⟩
  | str t =>
    simp only [literal, textLiteral] at h
    split at h
    · exact ⟨true, t, rfl, h⟩
    · cases h
  | _ => cases h

theorem quoted_tokens (hd : d.QuotedBy b) {t : Text} {s : Sql} (h : d.quoted t = .ok s) :
    ∃ u, s.tokens (d.engine.lexisWith b) = [.literal u] := by
  obtain ⟨l, hl, hs⟩ := exists_of_bind_ok h
  cases hs
  obtain ⟨u, hu⟩ := hd.literal hl
  exact ⟨u, by simp [Sql.tokens, Piece.tokens, Piece.text, hu]⟩

/-- Whatever a scalar is, its literal may be an item of a list. -/
theorem literal_isItem (hd : d.QuotedBy b) {v : Value} {l : Sql} (h : d.literal v = .ok l) :
    IsItem (l.tokens (d.engine.lexisWith b)) := by
  obtain ⟨isQuoted, t, -, hl⟩ := literal_spelled b h
  cases isQuoted with
  | true =>
    obtain ⟨u, hu⟩ := quoted_tokens hd hl
    exact hu ▸ isItem_literal u
  | false => exact hl.isItem

/-- The tokens of the literal of a value. -/
def constant (d : Dialect) (hasEscapes : Bool) (v : Value) : List Token :=
  match d.literal v with
  | .ok l => l.tokens (d.engine.lexisWith hasEscapes)
  | .error _ => []

theorem constant_of_literal {v : Value} {l : Sql} (hl : d.literal v = .ok l) :
    d.constant b v = l.tokens (d.engine.lexisWith b) := by
  rw [constant, hl]

theorem constant_null : d.constant b .null = [.word "NULL"] := by
  have hl : d.literal .null = .ok (Sql.code "NULL") := rfl
  rw [constant_of_literal hl]
  cases d.engine <;> rfl

theorem tokens_commas (ls : List Sql) :
    Sql.tokens (d.engine.lexisWith b) (Sql.join ", " ls) =
      listed (ls.map (Sql.tokens (d.engine.lexisWith b))) := by
  have hcomma : Sql.tokens (d.engine.lexisWith b) [.code ", "] = [.sign ','] := by
    cases d.engine <;> rfl
  induction ls with
  | nil => rfl
  | cons l ls ih =>
    cases ls with
    | nil => simp [Sql.join, listed, List.intercalate]
    | cons l' ls =>
      rw [Sql.join_cons_cons, Sql.tokens_append, ← List.singleton_append, Sql.tokens_append, hcomma, ih]
      simp only [List.map_cons, listed_cons_cons, List.singleton_append]

theorem constants_of_literals {vs : List Value} {ls : List Sql} (hls : vs.mapM d.literal = .ok ls) :
    ls.map (Sql.tokens (d.engine.lexisWith b)) = vs.map (d.constant b) := by
  have hforall := forall₂_of_mapM_ok hls
  clear hls
  induction hforall with
  | nil => rfl
  | cons hl _ ih => rw [List.map_cons, List.map_cons, ih, constant_of_literal hl]

/-- Whatever some scalars are, their literals may be the items of a list. -/
theorem forall_isItem (hd : d.QuotedBy b) {vs : List Value} {ls : List Sql}
    (hls : vs.mapM d.literal = .ok ls) :
    ∀ ts ∈ ls.map (Sql.tokens (d.engine.lexisWith b)), IsItem ts := by
  intro ts hts
  obtain ⟨l, hl, rfl⟩ := List.mem_map.mp hts
  obtain ⟨v, -, hv⟩ := exists_of_mem_mapM_ok hls hl
  exact literal_isItem hd hv

end Dialect

end DocStore
