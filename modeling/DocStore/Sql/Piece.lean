import DocStore.Text.Basic

/-!
SQL as a row of pieces. What comes from a caller stands in pieces of its own,
literals, identifiers and numbers, so that the fixed words around them are
known apart from their contents.
-/

namespace DocStore

/-- A piece of SQL. -/
inductive Piece where
  /-- Fixed words and signs. -/
  | code (text : Text)
  /-- A quoted literal. -/
  | literal (text : Text)
  /-- A quoted name. -/
  | identifier (text : Text)
  /-- A number without quotes. -/
  | number (text : Text)
  deriving DecidableEq

/-- The text of a piece. -/
def Piece.text : Piece → Text
  | .code t => t
  | .literal t => t
  | .identifier t => t
  | .number t => t

/-- A row of pieces. -/
abbrev Sql := List Piece

namespace Sql

/-- Fixed words. -/
def code (s : String) : Sql := [.code s]

instance : Coe String Sql := ⟨code⟩

/-- The text that is sent. -/
def render (sql : Sql) : Text := sql.flatMap Piece.text

@[simp] theorem render_nil : render [] = [] := rfl

@[simp] theorem render_append (s t : Sql) : render (s ++ t) = render s ++ render t := by
  simp [render]

/-- Rows of pieces put together with fixed words between them. -/
def join (separator : String) (parts : List Sql) : Sql :=
  List.intercalate (code separator) parts

/-- A literal of fixed text, which needs no escape. -/
def fixed (s : String) : Sql := [.literal ("'" ++ s ++ "'")]

end Sql

end DocStore
