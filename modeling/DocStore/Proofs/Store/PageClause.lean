import DocStore.Proofs.Filter.Clause
import DocStore.Proofs.Json.Numeral
import DocStore.Proofs.Store.Search

/-!
The clause of a page as a database reads it. The numbers that the clause names
are read from its tokens, and the rows that it leaves are those of the page
that was asked for.
-/

namespace DocStore

/-- The number that a token writes, when it is a row of digits. -/
def Token.natural? : Token → Option Nat
  | .word t => if !t.isEmpty && t.all Text.isAsciiDigit then some (Text.digitsValue t) else none
  | _ => none

/-- The rows that the clause of a page leaves, when it is one; without a clause, all of them. -/
def Lexis.leaves {α : Type} (x : Lexis) (clause : Option Sql) (rows : List α) : Option (List α) :=
  match clause with
  | none => some rows
  | some clause =>
    match x.lex clause.render with
    | some [.word limit, n] =>
      if limit = "LIMIT" then n.natural?.map rows.take else none
    | some [.word limit, n, .word offset, m] =>
      if limit = "LIMIT" ∧ offset = "OFFSET" then do
        let n ← n.natural?
        let m ← m.natural?
        return (rows.drop m).take n
      else none
    | _ => none

namespace Lexis

variable (e : Engine)

theorem scan_word_digits (x : Lexis) (w : Text) {cs : List Char} (hcs : Json.AreDigits cs) :
    x.scan (.word w) (cs.map CodePoint.ofChar) = ([], .word (w ++ cs.map CodePoint.ofChar)) := by
  induction cs generalizing w with
  | nil => simp [scan]
  | cons c cs ih =>
    obtain ⟨hc, hcs⟩ := List.forall_mem_cons.mp hcs
    have hpart : isWordPart (CodePoint.ofChar c) = true := by
      simp [isWordPart, Json.isAsciiDigit_ofChar, hc]
    simp only [List.map_cons, scan, step, hpart, if_true, ih _ hcs, List.append_assoc,
      List.nil_append, List.cons_append]

/-- A row of digits is read as one word. -/
theorem lex_digits {cs : List Char} (hcs : Json.AreDigits cs) (hne : cs ≠ []) :
    e.lexis.lex (cs.map CodePoint.ofChar) = some [.word (cs.map CodePoint.ofChar)] := by
  obtain ⟨c, cs, rfl⟩ := List.exists_cons_of_ne_nil hne
  obtain ⟨hc, hcs⟩ := List.forall_mem_cons.mp hcs
  have hpart : isWordPart (CodePoint.ofChar c) = true := by
    simp [isWordPart, Json.isAsciiDigit_ofChar, hc]
  have hstart : e.lexis.start (CodePoint.ofChar c) = ([], .word [CodePoint.ofChar c]) := by
    have hnumeral := (start_numeral e e.hasEscapes (mem_numeralChars_of_isDigit hc)).1
    rw [hpart, if_pos rfl] at hnumeral
    exact hnumeral
  simp only [lex, List.map_cons, scan, step, hstart, scan_word_digits _ _ hcs, Mode.flush,
    Option.map_some, List.nil_append, List.cons_append]

/-- A number is read as a word that writes it. -/
theorem exists_tokens_integerPiece (n : Nat) :
    ∃ t, t.natural? = some n ∧ Sql.tokens e.lexis (Dialect.integerPiece n) = [t] := by
  have hdigits := Json.AreDigits.toDigits n
  refine ⟨.word (Text.ofNat n), ?_, ?_⟩
  · have hall : (Text.ofNat n).all Text.isAsciiDigit = true := by
      refine List.all_eq_true.mpr (List.forall_mem_map.mpr fun c hc => ?_)
      rw [Json.isAsciiDigit_ofChar]
      exact hdigits c hc
    have hempty : (Text.ofNat n).isEmpty = false := by
      simp [Text.ofNat, Nat.toDigits_ne_nil]
    simp only [Token.natural?, hempty, hall, Bool.not_false, Bool.and_self, if_true]
    rw [Text.ofNat, Json.digitsValue_map, Nat.ofDigitChars_toDigits (by omega) (by omega)]
  · have hlex := lex_digits e hdigits Nat.toDigits_ne_nil
    simp [Sql.tokens, Dialect.integerPiece, Piece.tokens, Piece.text, Text.ofInt, Text.ofNat, hlex]

/-- The clause of a page is read to its end. -/
theorem lex_pageClause {skip limit : Option Nat} {clause : Sql}
    (h : Dialect.pageClause skip limit = some clause) :
    e.lexis.lex clause.render = some (clause.tokens e.lexis) := by
  have hbalanced := Dialect.isBalanced_limitClause (e := e) (b := e.hasEscapes)
    (Dialect.limitClause_numberOr skip limit)
  exact (hbalanced clause h).lex.1

/-- The clause of a page leaves the rows of the page; a page without an end is not cut. -/
theorem leaves_pageClause {α : Type} (skip limit : Option Nat) (rows : List α) :
    e.lexis.leaves (Dialect.pageClause skip limit) rows =
      some (if limit.getD 0 = 0 then rows else (rows.drop (skip.getD 0)).take (limit.getD 0)) := by
  have hlimit : Sql.tokens e.lexis "LIMIT " = [.word "LIMIT"] := by cases e <;> rfl
  have hoffset : Sql.tokens e.lexis " OFFSET " = [.word "OFFSET"] := by cases e <;> rfl
  -- The tokens of the clause are those of its pieces, for no piece ends inside a token.
  obtain ⟨n, hn, hntokens⟩ := exists_tokens_integerPiece e (limit.getD 0)
  obtain ⟨m, hm, hmtokens⟩ := exists_tokens_integerPiece e (skip.getD 0)
  cases hclause : Dialect.pageClause skip limit with
  | none =>
    have hnone : limit.getD 0 = 0 := by
      unfold Dialect.pageClause at hclause
      split at hclause
      · assumption
      · split at hclause <;> cases hclause
    rw [leaves, if_pos hnone]
  | some clause =>
    have hlex := lex_pageClause e hclause
    unfold Dialect.pageClause at hclause
    split at hclause
    · cases hclause
    next hne =>
      rw [if_neg hne]
      split at hclause
      next hskip =>
        cases hclause
        rw [Sql.tokens_append, hlimit, hntokens] at hlex
        simp only [leaves, hlex, List.cons_append, List.nil_append, if_true, hn, Option.map_some,
          hskip, List.drop_zero]
      next =>
        cases hclause
        rw [Sql.tokens_append, Sql.tokens_append, Sql.tokens_append, hlimit, hntokens, hoffset,
          hmtokens] at hlex
        simp only [leaves, hlex, List.cons_append, List.nil_append, and_self, if_true, hn, hm]
        rfl

end Lexis

end DocStore
