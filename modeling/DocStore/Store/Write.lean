import DocStore.Document.ObjectId
import DocStore.Store.Documents

/-!
Writing to a collection. Documents are read in full before any of them is
written over, so that no statement is sent while another one's rows are still
coming; a document is always written over by its own id, and keeps it.
-/

namespace DocStore

/-- A document as a literal. -/
def Dialect.document (d : Dialect) (ms : Members) : Except Fault Sql :=
  match storedText (.object ms) with
  | .ok t => d.textLiteral t
  | .error fault => .error (.misuse fault)

/-- A document with a patch over it and its own id, and that id. -/
def overlaid (patch document : Value) : Except Misuse (Value × Members) :=
  match document with
  | .object ms => do
    let changes ← Members.ofValue patch
    let id ← document.fieldOf idField
    return (id, Members.insert (Members.overlay ms changes) idField id)
  | _ => .error .wrongType

/-- A document that takes the place of another one and has its id, and that id. -/
def replacing (fresh current : Value) : Except Misuse (Value × Members) := do
  let ms ← Members.ofValue fresh
  let id ← current.fieldOf idField
  return (id, Members.insert ms idField id)

namespace Action

/-- A document with an id, which is made when there is none. -/
def identified (document : Value) : Action Members := do
  let ms ← ofMisuse (Members.ofValue document)
  if lacksId ms then return withId ms (← freshId) else return ms

/-- Documents with ids, made in order. -/
def identifiedAll : List Value → Action (List Members)
  | [] => return []
  | document :: rest => do
    let ms ← identified document
    return ms :: (← identifiedAll rest)

/-- Adds documents that have their ids. -/
def insertMembers (c : Nat) (documents : List Members) : Action Unit := do
  ensureTable c
  let x ← collection c
  let literals ← inDialect fun d => documents.mapM d.document
  let _ ← change (.insert x.table literals)

/-- Adds a document: what was stored. -/
def insertOne (c : Nat) (document : Value) : Action Value := do
  let ms ← identified document
  insertMembers c [ms]
  return .object ms

/-- Adds documents by one statement; none is sent for no document. -/
def insertMany (c : Nat) (documents : List Value) : Action Nat := do
  let stored ← identifiedAll documents
  if !stored.isEmpty then insertMembers c stored
  return stored.length

/-- Writes a document over the one of an id. -/
def writeOver (c : Nat) (id : Value) (ms : Members) : Action Unit := do
  let x ← collection c
  let statement ← inDialect fun d => do
    let document ← d.document ms
    let selector ← d.selector idField true
    return Statement.update x.table document selector (← d.literal id)
  let _ ← change statement

/-- Overlays documents with a patch, one by one. -/
def overlayAll (c : Nat) (patch : Value) : List Value → Action Unit
  | [] => return
  | document :: rest => do
    let (id, ms) ← ofMisuse (overlaid patch document)
    writeOver c id ms
    overlayAll c patch rest

/-- Overlays the selected documents with a patch: whether there were any. -/
def updateMany (c : Nat) (filter : Filter) (patch : Value) (options : FindOptions) :
    Action Bool := do
  let matching ← find c filter { options with projection := none }
  overlayAll c patch matching
  return !matching.isEmpty

/-- Overlays the first selected document with a patch: whether there was one. -/
def updateOne (c : Nat) (filter : Filter) (patch : Value) : Action Bool :=
  updateMany c filter patch { limit := some 1 }

/-- Puts a document in the place of the first selected one: whether there was one. -/
def replaceOne (c : Nat) (filter : Filter) (document : Value) : Action Bool := do
  let current ← findOne c filter {}
  if current.isNull then return false
  let (id, ms) ← ofMisuse (replacing document current)
  writeOver c id ms
  return true

/-- Deletes the documents of some ids. -/
def deleteIds (c : Nat) (ids : List Value) : Action Unit := do
  let x ← collection c
  let condition ← inDialect fun d => do
    let selector ← d.selector idField true
    return "WHERE " ++ selector ++ " IN (" ++ (← d.literals ids) ++ ")"
  let _ ← change (.delete x.table (some condition))

/-- Deletes the selected documents. Those that a predicate selects are found first and deleted by
their ids. -/
def deleteMany (c : Nat) (filter : Filter) : Action Unit := do
  ensureTable c
  match filter with
  | .predicate _ =>
    let selected ← find c filter {}
    let ids ← ofMisuse (selected.mapM fun document => document.fieldOf idField)
    if !ids.isEmpty then deleteIds c ids
  | .criteria v =>
    let x ← collection c
    let condition ← inDialect fun d => d.whereClause v
    let _ ← change (.delete x.table condition)

/-- The number of selected documents. Those that a predicate selects are counted here. -/
def count (c : Nat) (filter : Filter) : Action Int := do
  match filter with
  | .predicate _ => return (← find c filter {}).length
  | .criteria v =>
    ensureTable c
    let x ← collection c
    let condition ← inDialect fun d => d.whereClause v
    ofMisuse (firstInteger 0 (← rows (.count x.table condition)))

end Action

end DocStore
