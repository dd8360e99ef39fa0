import DocStore.Options.Field

/-!
Contexts of log records: the engine and the collection that a record is about,
and free tags. Contexts merge from the general to the particular.
-/

namespace DocStore

/-- What a log record is about. -/
structure LogContext where
  dialect : Option Text := none
  collection : Option Text := none
  tags : List (Text × Text) := []
  deriving DecidableEq

namespace LogContext

/-- A tag set: in its place when it is there, at the end when it is new. -/
def setTag : List (Text × Text) → Text × Text → List (Text × Text)
  | [], tag => [tag]
  | t :: ts, tag => if t.1 = tag.1 then tag :: ts else t :: setTag ts tag

/-- A context with another one over it: what the other gives wins. -/
def merge (c other : LogContext) : LogContext where
  dialect := other.dialect.or c.dialect
  collection := other.collection.or c.collection
  tags := other.tags.foldl setTag c.tags

/-- The merge of contexts that may be absent. -/
def merge? : Option LogContext → Option LogContext → Option LogContext
  | none, other => other
  | some c, none => some c
  | some c, some other => some (c.merge other)

/-- The context as members, absent parts left out. -/
def members (c : LogContext) : Members :=
  Members.optional "dialect" (c.dialect.map .str)
    ++ Members.optional "collection" (c.collection.map .str)
    ++ Members.one "tags" (.object (c.tags.map fun (k, t) => (k, .str t)))

/-- The context that the members of an object stand for. -/
def ofMembers (ms : Members) : Checked LogContext := do
  let (dialect, collection, tags) ←
    Checked.both (Field.optional Field.text ms "dialect") <|
    Checked.both (Field.optional Field.text ms "collection")
      (Field.withDefault [] (fun _ v => Field.objectOf Field.text ["tags"] v) ms "tags")
  return { dialect, collection, tags }

end LogContext

end DocStore
