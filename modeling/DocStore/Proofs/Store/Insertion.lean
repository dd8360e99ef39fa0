import DocStore.Proofs.Dialect.Literal
import DocStore.Proofs.Json.Plain
import DocStore.Proofs.Store.Table
import DocStore.Store.Write
import Mathlib.Data.List.TakeWhile

/-!
Statements that add documents, as they are read. The tokens of such a statement
are its fixed words, the name of the table, and for each document one literal
in parentheses, which denotes the JSON text of the document.
-/

namespace DocStore

namespace Statement

/-- The tokens of a row of values: a literal in parentheses. -/
def rowTokens (t : Text) : List Token := [.sign '(', .literal t, .sign ')']

/-- The tokens of a statement that adds documents, given the texts that its literals denote. -/
def insertTokens (table : Text) (texts : List Text) : List Token :=
  [.word "INSERT", .word "INTO", .name table, .sign '(', .name "document", .sign ')',
    .word "VALUES"] ++ List.intercalate [.sign ','] (texts.map rowTokens)

end Statement

namespace Sql

variable {e : Engine} {b : Bool}

theorem tokens_column (name : Text) :
    tokens (e.lexisWith b) [.identifier (quoteName e.nameMark name)] = [.name name] := by
  simp [tokens, Piece.tokens, Piece.text, e.lex_quoteName b name]

theorem tokens_row {l t : Text} (h : (e.lexisWith b).lex l = some [.literal t]) :
    tokens (e.lexisWith b) ("(" ++ ([.literal l] : Sql) ++ ")") = Statement.rowTokens t := by
  have hopen : tokens (e.lexisWith b) (code "(") = [.sign '('] := by cases e <;> rfl
  have hclose : tokens (e.lexisWith b) (code ")") = [.sign ')'] := by cases e <;> rfl
  have hliteral : tokens (e.lexisWith b) [.literal l] = [.literal t] := by
    simp [tokens, Piece.tokens, Piece.text, h]
  rw [tokens_append, tokens_append, hopen, hclose, hliteral]
  rfl

theorem tokens_joinComma (parts : List Sql) :
    tokens (e.lexisWith b) (join ", " parts) =
      List.intercalate [.sign ','] (parts.map (tokens (e.lexisWith b))) := by
  have hcomma : tokens (e.lexisWith b) [.code ", "] = [.sign ','] := by cases e <;> rfl
  induction parts with
  | nil => rfl
  | cons s parts ih =>
    cases parts with
    | nil => simp [join, List.intercalate]
    | cons t parts =>
      rw [join_cons_cons, tokens_append, ← List.singleton_append, tokens_append, hcomma, ih]
      simp [List.intercalate]

end Sql

namespace Statement

variable {e : Engine} {b : Bool}

/-- The fixed words of an insertion, with the names of the table and its column. -/
def insertHead (e : Engine) (table : Text) : Sql :=
  "INSERT INTO " ++ name e table ++ " (" ++ e.documentColumn ++ ") VALUES "

theorem fills_insertHead (table : Text) :
    Sql.Fills (e.lexisWith b) ("INSERT INTO " ++ ([.literal []] : Sql) ++ " (" ++
      ([.literal []] : Sql) ++ ") VALUES ") (insertHead e table) :=
  ((((Sql.Fills.code "INSERT INTO ").append (.unit (Sql.isUnit_column e b table))).append
    (.code " (")).append (.unit (Sql.isUnit_column e b "document"))).append (.code ") VALUES ")

theorem walk_insertHead (table : Text) :
    Sql.walk (e.lexisWith b) true ⟨true, 0⟩ (insertHead e table) = some ⟨true, 0⟩ := by
  obtain ⟨o, ho, hfree⟩ := (fills_insertHead (e := e) (b := b) table).walk (b := true)
    (p := ⟨true, 0⟩) (q := ⟨true, 0⟩) (by cases e <;> rfl)
  rw [hfree rfl] at ho
  exact ho

theorem tokens_insertHead (table : Text) :
    (insertHead e table).tokens (e.lexisWith b) =
      [.word "INSERT", .word "INTO", .name table, .sign '(', .name "document", .sign ')',
        .word "VALUES"] := by
  have hinto : Sql.tokens (e.lexisWith b) (Sql.code "INSERT INTO ") =
      [.word "INSERT", .word "INTO"] := by cases e <;> rfl
  have hopen : Sql.tokens (e.lexisWith b) (Sql.code " (") = [.sign '('] := by cases e <;> rfl
  have hvalues : Sql.tokens (e.lexisWith b) (Sql.code ") VALUES ") =
      [.sign ')', .word "VALUES"] := by cases e <;> rfl
  simp only [insertHead, Sql.tokens_append, hinto, hopen, hvalues, name, Engine.documentColumn,
    Engine.column, Sql.tokens_column]
  rfl

/-- The rows of values of some literals. -/
def rows (literals : List Text) : List Sql := literals.map fun l => "(" ++ ([.literal l] : Sql) ++ ")"

theorem rows_read {literals texts : List Text}
    (h : List.Forall₂ (fun l t => (e.lexisWith b).lex l = some [.literal t]) literals texts) :
    (∀ s ∈ rows literals, s.IsBalanced (e.lexisWith b) true) ∧
      (rows literals).map (Sql.tokens (e.lexisWith b)) = texts.map rowTokens := by
  induction h with
  | nil => exact ⟨nofun, rfl⟩
  | @cons l t literals texts hl _ ih =>
    obtain ⟨hbalanced, htokens⟩ := ih
    have hrow := (Sql.isUnit_literal hl).toIsBalanced.grouped.toIsBalanced
    refine ⟨List.forall_mem_cons.mpr ⟨hrow, hbalanced⟩, ?_⟩
    show Sql.tokens (e.lexisWith b) ("(" ++ ([.literal l] : Sql) ++ ")") ::
      (rows literals).map (Sql.tokens (e.lexisWith b)) = _
    rw [htokens, Sql.tokens_row hl]
    rfl

/-- A statement that adds documents is read to its end: one row for each literal, in order. -/
theorem lex_insert (table : Text) {literals texts : List Text}
    (h : List.Forall₂ (fun l t => (e.lexisWith b).lex l = some [.literal t]) literals texts) :
    (e.lexisWith b).lex ((insert table (literals.map fun l => [.literal l])).text e) =
      some (insertTokens table texts) := by
  obtain ⟨hbalanced, htokens⟩ := rows_read h
  have hsql : (insert table (literals.map fun l => [.literal l])).sql e =
      insertHead e table ++ Sql.join ", " (rows literals) := by
    show _ ++ Sql.join ", " (List.map _ (List.map _ literals)) = _
    rw [List.map_map]
    rfl
  have hrows := Sql.IsBalanced.join (Sql.walkCode_comma e b) hbalanced
  obtain ⟨o, ho⟩ := hrows.walk
  have hwalk : Sql.walk (e.lexisWith b) true ⟨true, 0⟩
      (insertHead e table ++ Sql.join ", " (rows literals)) = some ⟨o, 0⟩ := by
    rw [Sql.walk_append, walk_insertHead, Option.bind_some, ho]
  have hvalid := List.forall_mem_append.mpr
    ⟨(fills_insertHead (e := e) (b := b) table).valid, hrows.valid⟩
  rw [text, hsql, (Sql.lex_render hvalid hwalk).1, Sql.tokens_append, tokens_insertHead,
    Sql.tokens_joinComma, htokens]
  rfl

end Statement

/-! ### The literals of documents -/

theorem beforeNul_eq_self {t : Text} (h : ∀ c ∈ t, 0x20 ≤ c.val) : beforeNul t = t := by
  refine List.takeWhile_eq_self_iff.mpr fun c hc => ?_
  have hle := h c hc
  simp only [ne_eq, decide_not, Bool.not_eq_true', decide_eq_false_iff_not]
  omega

/-- What is quoted of a JSON text is one literal by the rules of the engine, and denotes the text. -/
theorem Engine.lex_quote_encode {e : Engine} {v : Value} {t l : Text} (ht : Json.encode v = some t)
    (hl : e.quote t = .ok l) : e.lexis.lex l = some [.literal t] := by
  obtain ⟨-, hcontrol⟩ := Json.encode_isEncodable ht
  rw [Engine.lex_quote hl, beforeNul_eq_self hcontrol, ite_self]

/-- The literal of a document, where it has one, denotes its JSON text. -/
theorem Store.literal_of_document {s : Store} {ms : Members} {sql : Sql}
    (h : s.dialect.document ms = .ok sql) :
    ∃ t l, Json.encode (.object ms) = some t ∧ sql = [.literal l] ∧
      s.engine.lexis.lex l = some [.literal t] := by
  unfold Dialect.document storedText at h
  cases ht : Json.encode (.object ms) with
  | none =>
    rw [ht] at h
    cases h
  | some t =>
    rw [ht] at h
    dsimp only [Dialect.textLiteral, Dialect.quoted] at h
    rw [if_pos (Json.encode_isEncodable ht).1] at h
    obtain ⟨l, hl, ⟨⟩⟩ := exists_of_bind_ok h
    exact ⟨t, l, rfl, rfl, Engine.lex_quote_encode ht (s.quote_ok hl)⟩

/-- Documents that have a JSON text have a literal, where the database refuses nothing. -/
theorem Store.Works.exists_document {s : Store} (hs : s.Works) {ms : Members}
    (h : (Json.encode (.object ms)).isSome) : ∃ sql, s.dialect.document ms = .ok sql := by
  obtain ⟨t, ht⟩ := Option.isSome_iff_exists.mp h
  obtain ⟨hencodable, -⟩ := Json.encode_isEncodable ht
  obtain ⟨sql, hsql⟩ := Dialect.exists_quoted hs.quotesAll hencodable
  refine ⟨sql, ?_⟩
  rw [Dialect.document, storedText, ht]
  dsimp only [Dialect.textLiteral]
  rw [if_pos hencodable, hsql]

end DocStore
