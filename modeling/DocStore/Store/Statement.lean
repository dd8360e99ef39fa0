import DocStore.Sql.Identifier

/-!
Statements as data. A statement says what is done to which table; what came
from outside stands in it already quoted, so that its SQL is put together
without any further decision.
-/

namespace DocStore

/-- A statement. -/
inductive Statement where
  /-- Makes a table, or an index of it, unless it has been made. -/
  | create (table : Text) (sql : Sql)
  /-- Drops a table if there is one. -/
  | drop (table : Text) (sql : Sql)
  /-- Counts the tables of a name. -/
  | presence (sql : Sql)
  /-- Reads documents: a condition, an order and a page, each where there is one. -/
  | select (table : Text) (condition order page : Option Sql)
  /-- Counts documents. -/
  | count (table : Text) (condition : Option Sql)
  /-- Adds documents, given as literals. -/
  | insert (table : Text) (documents : List Sql)
  /-- Writes a document, given as a literal, over those whose selector equals an id. -/
  | update (table : Text) (document selector id : Sql)
  /-- Deletes documents. -/
  | delete (table : Text) (condition : Option Sql)
  /-- A statement that the caller wrote. -/
  | written (text : Text)

namespace Statement

/-- The quoted name of a table. -/
def name (engine : Engine) (table : Text) : Sql := [.identifier (quoteName engine.nameMark table)]

/-- A statement with the clauses that there are. -/
def withClauses (head : Sql) (clauses : List (Option Sql)) : Sql :=
  Sql.join " " (head :: clauses.filterMap id)

/-- The SQL of a statement. -/
def sql (engine : Engine) : Statement → Sql
  | .create _ s => s
  | .drop _ s => s
  | .presence s => s
  | .select table condition order page =>
    withClauses ("SELECT " ++ engine.documentColumn ++ " FROM " ++ name engine table)
      [condition, order, page]
  | .count table condition => withClauses ("SELECT COUNT(*) FROM " ++ name engine table) [condition]
  | .insert table documents =>
    "INSERT INTO " ++ name engine table ++ " (" ++ engine.documentColumn ++ ") VALUES "
      ++ Sql.join ", " (documents.map fun d => "(" ++ d ++ ")")
  | .update table document selector id =>
    "UPDATE " ++ name engine table ++ " SET " ++ engine.documentColumn ++ " = " ++ document
      ++ " WHERE " ++ selector ++ " = " ++ id
  | .delete table condition => withClauses ("DELETE FROM " ++ name engine table) [condition]
  | .written text => [.code text]

/-- The text of a statement, as it is sent. -/
def text (engine : Engine) (s : Statement) : Text := (s.sql engine).render

end Statement

end DocStore
