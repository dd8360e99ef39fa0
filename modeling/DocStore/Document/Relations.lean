import DocStore.Document.ObjectId
import DocStore.Fault.Basic
import DocStore.Value.Compare
import DocStore.Value.Mapping

/-!
Relations between documents. A document may refer to one document of another
collection, which then stands in the place of the reference, or be referred to
by many, which are then listed in it. Each look-up is made once and remembered.
-/

namespace DocStore

/-- The relations of documents. -/
structure Relations where
  /-- The fields that refer to a document, with the collections it is in. -/
  one : List (Text × Value) := []
  /-- The collections that refer to a document, with the fields they do it by. -/
  many : List (Text × Value) := []

/-- The two kinds of relations. -/
inductive RelationKind where
  | one
  | many
  deriving DecidableEq

namespace Relations

/-- Whether there is any relation. -/
def isActive (r : Relations) : Bool := !r.one.isEmpty || !r.many.isEmpty

/-- The relations with some more. -/
def add (r : Relations) (kind : RelationKind) (more : Members) : Relations :=
  match kind with
  | .one => { r with one := r.one ++ more }
  | .many => { r with many := r.many ++ more }

end Relations

/-- How related documents are found. -/
structure Lookups (m : Type → Type) where
  /-- The document of an id in a collection, or null. -/
  one : Value → Value → m Value
  /-- The documents of a collection whose field is equal to a value. -/
  many : Text → Value → Value → m (List Value)

/-- A look-up of one document that was made. -/
structure FoundOne where
  collection : Value
  id : Value
  document : Value

/-- A look-up of many documents that was made. -/
structure FoundMany where
  collection : Text
  field : Value
  id : Value
  documents : List Value

/-- What was looked up. -/
structure Lookedup where
  ones : List FoundOne := []
  manies : List FoundMany := []

namespace Lookedup

/-- The document that was found. -/
def one? (l : Lookedup) (collection id : Value) : Option Value :=
  (l.ones.find? fun f => f.collection.sameKey collection && f.id.sameKey id).map (·.document)

/-- The documents that were found. -/
def many? (l : Lookedup) (collection : Text) (field id : Value) : Option (List Value) :=
  (l.manies.find? fun f =>
    f.collection = collection && f.field.sameKey field && f.id.sameKey id).map (·.documents)

/-- A document looked up, or remembered. -/
def findOne {m : Type → Type} [Monad m] (l : Lookedup) (look : Lookups m) (collection id : Value) :
    m (Value × Lookedup) :=
  match l.one? collection id with
  | some document => pure (document, l)
  | none => do
    let document ← look.one collection id
    return (document, { l with ones := l.ones ++ [⟨collection, id, document⟩] })

/-- Documents looked up, or remembered. -/
def findMany {m : Type → Type} [Monad m] (l : Lookedup) (look : Lookups m) (collection : Text)
    (field id : Value) : m (List Value × Lookedup) :=
  match l.many? collection field id with
  | some documents => pure (documents, l)
  | none => do
    let documents ← look.many collection field id
    return (documents, { l with manies := l.manies ++ [⟨collection, field, id, documents⟩] })

end Lookedup

/-- Whether a value refers to a document: a text that is not empty, or an integer. -/
def isReference : Value → Bool
  | .str t => !t.isEmpty
  | .int _ => true
  | _ => false

namespace Relations

variable {m : Type → Type} [Monad m] [MonadExceptOf Fault m]

/-- Documents with the documents put in that their fields refer to. -/
def fillOne (look : Lookups m) : List (Text × Value) → Members × Lookedup → m (Members × Lookedup)
  | [], done => pure done
  | (field, collection) :: rest, (ms, l) =>
    let v := (ms.get? field).getD .null
    if !isReference v then fillOne look rest (ms, l)
    else if !collection.isKey then throw (.misuse .wrongType)
    else do
      let (document, l) ← l.findOne look collection v
      fillOne look rest (ms.insert field document, l)

/-- A document with the documents listed in it that refer to its id. -/
def fillMany (look : Lookups m) (id : Value) :
    List (Text × Value) → Members × Lookedup → m (Members × Lookedup)
  | [], done => pure done
  | (collection, field) :: rest, (ms, l) =>
    if !field.isKey || !id.isKey then throw (.misuse .wrongType)
    else do
      let (documents, l) ← l.findMany look collection field id
      fillMany look id rest (ms.insert collection (.list documents), l)

/-- A document with its relations filled in. A document without an id is not referred to. -/
def fill (r : Relations) (look : Lookups m) (document : Value) (l : Lookedup) :
    m (Value × Lookedup) := do
  if !r.isActive then return (document, l)
  match Members.ofValue document with
  | .error fault => throw (.misuse fault)
  | .ok ms =>
    let (ms, l) ← fillOne look r.one (ms, l)
    match ms.get? idField with
    | none => return (.object ms, l)
    | some .null => return (.object ms, l)
    | some id =>
      let (ms, l) ← fillMany look id r.many (ms, l)
      return (.object ms, l)

/-- Documents with their relations filled in, in order. -/
def fillAll (r : Relations) (look : Lookups m) : List Value → Lookedup → m (List Value × Lookedup)
  | [], l => pure ([], l)
  | document :: rest, l => do
    let (v, l) ← r.fill look document l
    let (vs, l) ← fillAll r look rest l
    return (v :: vs, l)

end Relations

end DocStore
