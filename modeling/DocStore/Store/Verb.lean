import DocStore.Document.Relations
import DocStore.Store.Write

/-!
The verbs of a store. A verb names a collection, or acts on one that was
obtained before; each is run against the store and gives an answer or fails.
-/

namespace DocStore

namespace Action

/-- What a search of a collection is made of. -/
abbrev Search := Nat × Filter × FindOptions

/-- The search that an object of a filter and options stands for. -/
def search (name criteria : Value) : Action Search := do
  let ms ← if criteria.isTruthy then ofMisuse (Members.ofValue criteria) else pure []
  let filter := Filter.ofValue ((Members.get? ms "filter").getD .null)
  let c ← obtain name
  let options ← findOptions (.object (Members.erase ms "filter"))
  return (c, filter, options)

/-- All documents that a filter selects. -/
def findAll (name : Value) (filter : Filter) : Action (List Value) := do
  find (← obtain name) filter {}

/-- The document of an id, or null. -/
def findById (name id : Value) : Action Value := do
  findOne (← obtain name) (withIdOf id) {}

/-- The documents that refer to an id by a field. -/
def findReferring (name : Text) (field id : Value) : Action (List Value) := do
  let c ← obtain (.str name)
  match field with
  | .str key => find c (.criteria (.object (Members.one key id))) {}
  | _ => throw ↑ArgumentFault.fieldName

/-- Related documents are looked up in the store itself. -/
def lookups : Lookups Action := ⟨findById, findReferring⟩

/-- Saves a document: one without an id is added, and another one takes the place of the document
of its id, or is laid over it, or is added where there is none. -/
def save (name document : Value) (isCreate : Bool) : Action Value := do
  let c ← obtain name
  match document with
  | .object ms =>
    if lacksId ms then insertOne c document
    else
      let filter := withIdOf ((Members.get? ms idField).getD .null)
      if isCreate then
        if ← replaceOne c filter document then return document else insertOne c document
      else if ← updateOne c filter document then
        let found ← findOne c filter {}
        return if found.isTruthy then found else document
      else insertOne c document
  | _ => throw (.misuse .noMember)

/-- Adds a document, or the documents of a list: what was stored. -/
def insert (name document : Value) : Action Value := do
  let c ← obtain name
  match document with
  | .object _ => insertOne c document
  | v =>
    match v.items? with
    | none => throw (.misuse (.notInsertable v.typeName))
    | some documents =>
      let stored := (← identifiedAll documents).map Value.object
      let _ ← insertMany c stored
      return .list stored

/-- A document without a field. -/
def withoutField (field document : Value) : Except Misuse Value :=
  match document, field with
  | .object ms, .str key => .ok (.object (Members.erase ms key))
  | .object ms, _ => .ok (.object ms)
  | _, _ => .error .noMember

/-- A document with a field under another name, at the end unless it has that name already. -/
def withRenamed (field fresh document : Value) : Except Misuse Value := do
  let ms ← Members.ofValue document
  match field with
  | .str key =>
    match ms.get? key with
    | none => .error (.missingKey key)
    | some v =>
      match fresh.keyText? with
      | some name => return .object (Members.insert (Members.erase ms key) name v)
      | none => .error .wrongType
  | _ => .error .wrongType

/-- Saves the documents that have a field, changed in one way: how many there were. -/
def changeField (name field : Value) (change : Value → Except Misuse Value) :
    List Value → Action Nat
  | [] => return 0
  | document :: rest => do
    if ← ofMisuse (document.hasField field) then
      let _ ← save name (← ofMisuse (change document)) true
      return (← changeField name field change rest) + 1
    else changeField name field change rest

/-- Removes a field from the selected documents: how many had it. -/
def removeField (name field : Value) (filter : Filter) : Action Nat := do
  changeField name field (withoutField field) (← findAll name filter)

/-- Renames a field of the selected documents: how many had it. -/
def renameField (name field fresh : Value) (filter : Filter) : Action Nat := do
  changeField name field (withRenamed field fresh) (← findAll name filter)

end Action

/-- What a verb does to one collection. -/
inductive CollectionVerb where
  | findOne (filter : Filter) (options : Value)
  | insertOne (document : Value)
  | insertMany (documents : Value)
  | updateMany (filter : Filter) (patch options : Value)
  | updateOne (filter : Filter) (patch : Value)
  | replaceOne (filter : Filter) (document : Value)
  | deleteMany (filter : Filter)
  | count (filter : Filter)
  | drop
  | ensureTable

/-- What can be asked of a store. -/
inductive Verb where
  | obtain (name database : Value)
  | hasCollection (name : Value)
  | dropCollection (name : Value)
  | findOne (name : Value) (filter : Filter)
  | findById (name id : Value)
  | save (name document : Value) (isCreate : Bool)
  | insert (name document : Value)
  | update (name : Value) (filter : Filter) (patch : Value)
  | remove (name : Value) (filter : Filter)
  | count (name : Value) (filter : Filter)
  | removeField (name field : Value) (filter : Filter)
  | renameField (name field fresh : Value) (filter : Filter)
  | on (collection : Nat) (verb : CollectionVerb)
  /-- Sends a statement of the caller. -/
  | send (text : Text)
  /-- Reads all rows of a query of the caller at once. -/
  | rows (text : Text)
  /-- Reads the rows of a query of the caller one by one. -/
  | eachRow (text : Text)
  | quote (text : Text)
  | isOpen
  | connect
  | close

/-- The answer of a verb. -/
inductive Answer where
  | nothing
  | value (v : Value)
  /-- A document, or null. -/
  | document (v : Value)
  | documents (vs : List Value)
  | rows (rows : List Row)
  | collection (c : Nat)

namespace Answer

/-- A truth value as an answer. -/
def truth (b : Bool) : Answer := .value (.bool b)

/-- An integer as an answer. -/
def integer (n : Int) : Answer := .value (.int n)

/-- What was stored: one document, or a list of them. -/
def stored : Value → Answer
  | .list vs => .documents vs
  | v => .document v

end Answer

/-- Runs a verb on one collection. -/
def CollectionVerb.run (c : Nat) : CollectionVerb → Action Answer
  | .findOne filter options => do
    let options ← Action.findOptions options
    return .document (← Action.findOne c filter options)
  | .insertOne document => return .document (← Action.insertOne c document)
  | .insertMany documents =>
    match documents.sequence? with
    | some vs => return .integer (← Action.insertMany c vs)
    | none => throw (.misuse .wrongType)
  | .updateMany filter patch options => do
    let options ← Action.findOptions options
    return .truth (← Action.updateMany c filter patch options)
  | .updateOne filter patch => return .truth (← Action.updateOne c filter patch)
  | .replaceOne filter document => return .truth (← Action.replaceOne c filter document)
  | .deleteMany filter => do
    Action.deleteMany c filter
    return .truth true
  | .count filter => return .integer (← Action.count c filter)
  | .drop => do
    Action.drop c
    return .truth true
  | .ensureTable => do
    Action.ensureTable c
    return .nothing

/-- Runs a verb. -/
def Verb.run : Verb → Action Answer
  | .obtain name database => return .collection (← Action.obtain (identifierOf name database))
  | .hasCollection name => return .truth (← Action.hasTable name)
  | .dropCollection name => do (CollectionVerb.drop).run (← Action.obtain name)
  | .findOne name filter => do
    return .document (← Action.findOne (← Action.obtain name) filter {})
  | .findById name id => return .document (← Action.findById name id)
  | .save name document isCreate => return .document (← Action.save name document isCreate)
  | .insert name document => return .stored (← Action.insert name document)
  | .update name filter patch => do
    return .truth (← Action.updateMany (← Action.obtain name) filter patch {})
  | .remove name filter => do (CollectionVerb.deleteMany filter).run (← Action.obtain name)
  | .count name filter => do (CollectionVerb.count filter).run (← Action.obtain name)
  | .removeField name field filter => return .integer (← Action.removeField name field filter)
  | .renameField name field fresh filter =>
    return .integer (← Action.renameField name field fresh filter)
  | .on c verb => verb.run c
  | .send text => return .value (← Action.change (.written text))
  | .rows text => return .rows (← Action.rows (.written text))
  | .eachRow text => return .rows (← Action.eachRow (.written text))
  | .quote text => return .value (.str (← Action.quoted text))
  | .isOpen => return .truth (← get).isOpen
  | .connect => do
    Action.connect
    return .truth (← get).isOpen
  | .close => do
    Action.close
    return .truth (← get).isOpen

end DocStore
