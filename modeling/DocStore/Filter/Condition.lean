import DocStore.Sql.Piece

/-!
Conditions: what a filter asks, as a tree over conditions on single fields. A
conjunction stands without parentheses, so it is only ever put where a
conjunction may stand: at the top, inside another one, or in parentheses.
-/

namespace DocStore

/-- The two ways in which clauses go together. -/
inductive Glue where
  | and
  | or
  deriving DecidableEq

namespace Glue

/-- The key that clauses stand under. -/
def key : Glue → Text
  | .and => "$and"
  | .or => "$or"

/-- The word between clauses. -/
def word : Glue → String
  | .and => " AND "
  | .or => " OR "

/-- The glue of a key. -/
def ofKey? (key : Text) : Option Glue :=
  if key = Glue.and.key then some .and else if key = Glue.or.key then some .or else none

end Glue

/-- A condition. -/
inductive Condition where
  /-- A condition on one field. -/
  | leaf (sql : Sql)
  /-- The conjunction of some conditions, without parentheses. -/
  | all (parts : List Condition)
  /-- Clauses in parentheses, and parentheses around them all. -/
  | clauses (glue : Glue) (parts : List Condition)
  /-- The negation of a condition in parentheses. -/
  | negation (part : Condition)

namespace Condition

mutual

/-- The SQL of a condition. -/
def sql : Condition → Sql
  | .leaf s => s
  | .all parts => Sql.join " AND " (sqlParts parts)
  | .clauses glue parts => "(" ++ Sql.join glue.word (sqlClauses parts) ++ ")"
  | .negation part => "NOT (" ++ part.sql ++ ")"

/-- The SQL of the parts of a conjunction. -/
def sqlParts : List Condition → List Sql
  | [] => []
  | c :: cs => c.sql :: sqlParts cs

/-- The SQL of clauses, each in parentheses. -/
def sqlClauses : List Condition → List Sql
  | [] => []
  | c :: cs => ("(" ++ c.sql ++ ")") :: sqlClauses cs

end

/-- The conjunction of the conditions that there are, or none. -/
def conjunction? : List Condition → Option Condition
  | [] => none
  | parts => some (.all parts)

/-- The clauses that there are, or none. -/
def clauses? (glue : Glue) : List Condition → Option Condition
  | [] => none
  | parts => some (.clauses glue parts)

end Condition

end DocStore
