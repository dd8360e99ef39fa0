import DocStore.Fault.Misuse

/-!
Names of collections. A collection may be named together with its database, a
slash between them; its table is named with an underscore in that place.
-/

namespace DocStore

/-- The table of a collection. -/
def tableName (collection : Text) : Text := collection.replace '/' "_"

/-- The identifier of a collection that a value is; it must not be empty. -/
def collectionName (v : Value) : Except Misuse Text :=
  if !v.isTruthy then .error .emptyCollection
  else
    match v with
    | .str name => .ok name
    | .bytes _ => .error .wrongType
    | _ => .error .noMember

/-- The identifier of a collection of a database, or of the one that is named so by itself. -/
def identifierOf (name database : Value) : Value :=
  if database.isTruthy then .str (database.toText ++ "/" ++ name.toText) else name

end DocStore
