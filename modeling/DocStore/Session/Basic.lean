import DocStore.Document.Relations
import DocStore.Store.Verb

/-!
Sessions. A caller works with a store over a while and holds on to what it
handed out: cursors, results, and iterators over them, which change as they are
read. Handles are numbered in the order in which they were handed out.
-/

namespace DocStore

/-- A search that can be read once. -/
structure Cursor where
  collection : Nat
  filter : Filter
  options : FindOptions
  /-- Whether its reading has begun. -/
  isConsumed : Bool := false

/-- Documents with relations that are filled in while they are read. -/
structure RelatedDocuments where
  cursor : Cursor
  relations : Relations := {}
  lookedup : Lookedup := {}

/-- How far documents with relations were read. -/
inductive RelatedReading where
  | waiting
  /-- They are filled in as they come. -/
  | streaming (documents : Documents)
  /-- All were read first, and these are left. -/
  | gathered (documents : List Value)
  | finished

/-- What gives documents one by one. -/
inductive Iterator where
  | documents (d : Documents)
  /-- The results of a handle, from a position on. -/
  | results (source position : Nat)
  /-- The documents with relations of a handle. -/
  | related (source : Nat) (reading : RelatedReading)
  | finished

/-- What a caller holds. -/
inductive Handle where
  | cursor (k : Cursor)
  | results (documents : List Value)
  | related (r : RelatedDocuments)
  | iterator (i : Iterator)

/-- A store and what was handed out of it. -/
structure Session where
  store : Store
  handles : List Handle := []

/-- What changes a session and may fail. -/
abbrev SessionAction (α : Type) : Type := ExceptT Fault (StateM Session) α

namespace SessionAction

/-- What is done to the store of a session. -/
def ofAction {α : Type} (a : Action α) : SessionAction α := fun session =>
  let (r, store) := a session.store
  (r, { session with store := store })

/-- The handle of a number. -/
def handle (h : Nat) : SessionAction Handle := do
  match (← get).handles[h]? with
  | some x => pure x
  | none => throw (.misuse .noMember)

/-- Hands something out: its number. -/
def handOut (x : Handle) : SessionAction Nat := do
  let session ← get
  set { session with handles := session.handles ++ [x] }
  return session.handles.length

/-- Changes a handle. -/
def put (h : Nat) (x : Handle) : SessionAction Unit :=
  modify fun session => { session with handles := session.handles.set h x }

end SessionAction

end DocStore
