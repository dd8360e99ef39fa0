import DocStore.Engine.Basic
import DocStore.Fault.Misuse
import DocStore.Sql.Piece

/-!
Quoted names of tables and columns: a mark on both sides, and the mark doubled
where it occurs inside.
-/

namespace DocStore

/-- A name between marks. -/
def quoteName (mark : CodePoint) (name : Text) : Text :=
  mark :: name.replace mark [mark, mark] ++ [mark]

/-- A name between marks; there must be one. -/
def quoteName? (mark : CodePoint) (name : Text) : Except Misuse Text :=
  if name.isEmpty then .error .emptyIdentifier else .ok (quoteName mark name)

/-- The mark that an engine puts around names: the grave accent or the double quote. -/
def Engine.nameMark : Engine → CodePoint
  | .mysql => CodePoint.ofNat 0x60
  | .pgsql | .sqlite => '"'

/-- The name of a column of the store. -/
def Engine.column (engine : Engine) (name : Text) : Sql :=
  [.identifier (quoteName engine.nameMark name)]

/-- The column that holds the documents. -/
def Engine.documentColumn (engine : Engine) : Sql := engine.column "document"

end DocStore
