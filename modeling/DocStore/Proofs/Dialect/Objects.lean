import DocStore.Dialect.Schema
import DocStore.Proofs.Dialect.Origin
import DocStore.Proofs.Filter.Clause
import DocStore.Proofs.Filter.Member
import DocStore.Proofs.Filter.Reading
import DocStore.Proofs.Sql.Objects
import DocStore.Store.Statement

/-!
The objects of collections. What makes the table of a collection names the table
and, where an index keeps the ids apart, this index; clauses name nothing. Two
tables have objects in common when they have one name, or when one of them has
the name of the other one's index.
-/

namespace DocStore

namespace Engine

/-- The objects that each of the statements names that make a table: itself, and the index over its
ids where a column does not keep them apart. -/
def creations (e : Engine) (table : Text) : List (List Text) :=
  match e with
  | .mysql => [[table]]
  | .pgsql | .sqlite => [[table], [Dialect.indexName table, table]]

/-- The objects of a table. -/
def objectsOf (e : Engine) (table : Text) : List Text := (e.creations table).flatten

variable {e : Engine} {t u : Text}

end Engine

namespace Dialect

variable {d : Dialect} {field : Text} {numbers : List Number}

/-! ### Words -/

/-- The words that clauses, statements and tables are put together with. -/
def outerWords : List String :=
  ["WHERE ", "ORDER BY ", "ASC", "DESC", "LIMIT ", " OFFSET ", " (", ") VALUES ", " SET ",
    " WHERE ", " INT NOT NULL AUTO_INCREMENT PRIMARY KEY, ", " JSON NOT NULL, ",
    " VARCHAR(255) GENERATED ALWAYS AS (JSON_UNQUOTE(JSON_EXTRACT(", "))) VIRTUAL UNIQUE",
    ") ENGINE=InnoDB DEFAULT CHARSET=utf8mb4 COLLATE=utf8mb4_unicode_ci", " SERIAL PRIMARY KEY, ",
    " JSONB NOT NULL)", " (((", ")::text))", " INTEGER PRIMARY KEY AUTOINCREMENT, ",
    " TEXT NOT NULL)"]

/-- The words that all SQL is put together with, but for the heads of statements. -/
def allWords : List String := words ++ Condition.words ++ outerWords

/-- The one of the words that has keywords which names come after: what comes after them are
parentheses and a function. -/
def lookupWord : String := "EXISTS (SELECT 1 FROM json_each("

theorem isQuiet_lookupWord (e : Engine) : (Piece.code lookupWord).IsQuiet e.lexis := by
  have htokens : Piece.tokens e.lexis (.code lookupWord) = [.word "EXISTS", .sign '(',
      .word "SELECT", .word "1", .word "FROM", .word "json_each", .sign '('] := by cases e <;> rfl
  intro us
  rw [htokens]
  rfl

theorem words_introduce (e : Engine) : ∀ w ∈ allWords,
    w = lookupWord ∨ ∀ t ∈ Piece.tokens e.lexis (.code w), t.introduces = false := by
  -- All engines are gone through at once, so that each word is spelled out only once.
  have hall : ∀ w ∈ allWords, w = lookupWord ∨ ∀ e ∈ [Engine.mysql, .pgsql, .sqlite],
      ∀ t ∈ Piece.tokens e.lexis (.code w), t.introduces = false := by decide +kernel
  have he : e ∈ [Engine.mysql, .pgsql, .sqlite] := by cases e <;> decide
  exact fun w hw => (hall w hw).imp_right fun h => h e he

theorem fixedTexts_introduce (e : Engine) : ∀ t ∈ fixedTexts,
    ∀ u ∈ Piece.tokens e.lexis (.literal ("'" ++ t ++ "'")), u.introduces = false := by
  cases e <;> decide +kernel

theorem isQuiet_word (e : Engine) {w : String} (h : w ∈ allWords) :
    (Piece.code w).IsQuiet e.lexis := by
  obtain rfl | hquiet := words_introduce e w h
  · exact isQuiet_lookupWord e
  · exact .of_forall hquiet

theorem isQuiet_column (e : Engine) (name : Text) : (e.column name).IsQuiet e.lexis :=
  List.forall_mem_singleton.mpr (Piece.isQuiet_column e name)

/-! ### Clauses -/

section

variable (hd : d.QuotedBy d.engine.hasEscapes)

include hd

theorem isQuiet_quote {t l : Text} (h : d.quote t = .ok l) :
    (Piece.literal l).IsQuiet d.engine.lexis :=
  Piece.isQuiet_literal (hd.literal h)

theorem Origin.isQuiet {p : Piece} (h : Origin d field numbers p) : p.IsQuiet d.engine.lexis := by
  cases h with
  | word h => exact isQuiet_word _ (List.mem_append_left _ (List.mem_append_left _ h))
  | column => exact Piece.isQuiet_column _ _
  | fixed h => exact .of_forall (fixedTexts_introduce d.engine _ h)
  | path _ hl => exact isQuiet_quote hd hl
  | text _ hl => exact isQuiet_quote hd hl
  | number _ => exact Piece.isQuiet_display _ _

theorem isQuiet_of_writes {e : Except Fault Sql} {sql : Sql} (he : Writes d field numbers e)
    (h : e = .ok sql) : sql.IsQuiet d.engine.lexis :=
  fun p hp => (he.of_ok h p hp).isQuiet hd

theorem isQuiet_literal {v : Value} {sql : Sql} (h : d.literal v = .ok sql) :
    sql.IsQuiet d.engine.lexis := by
  have hwrites : Writes d [] v.numeric?.toList (d.literal v) :=
    literal_writes fun _ n hn => by simp [hn]
  exact isQuiet_of_writes hd hwrites h

end

end Dialect

end DocStore
