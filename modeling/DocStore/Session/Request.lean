import DocStore.Session.Basic

/-!
Requests of a session. Asking a cursor for an iterator begins its reading, and
can be done once; an iterator that failed gives nothing more.
-/

namespace DocStore

namespace SessionAction

/-- Begins the reading of a cursor; `mark` keeps that it has begun. -/
def begin (k : Cursor) (mark : Cursor → SessionAction Unit) : SessionAction Documents := do
  if k.isConsumed then
    throw (.consumed (← ofAction (Action.collection k.collection)).name)
  mark { k with isConsumed := true }
  return (← ofAction (Action.compile k.collection k.filter k.options)).documents

/-- Begins the reading of the cursor of a handle. -/
def beginCursor (h : Nat) (k : Cursor) : SessionAction Documents :=
  begin k fun k => put h (.cursor k)

/-- Begins the reading of the documents with relations of a handle. -/
def beginRelated (h : Nat) (r : RelatedDocuments) : SessionAction Documents :=
  begin r.cursor fun k => put h (.related { r with cursor := k })

/-- The documents with relations of a handle. -/
def relatedOf (h : Nat) : SessionAction RelatedDocuments := do
  match ← handle h with
  | .related r => pure r
  | _ => throw (.misuse .noMember)

/-- Fills in the relations of documents that were read; what is looked up is remembered. -/
def fillAll (h : Nat) (documents : List Value) : SessionAction (List Value) := do
  let r ← relatedOf h
  let (filled, l) ← ofAction (r.relations.fillAll Action.lookups documents r.lookedup)
  put h (.related { r with lookedup := l })
  return filled

/-- All documents of a handle. -/
def toList (h : Nat) : SessionAction (List Value) := do
  match ← handle h with
  | .cursor k => do ofAction (← beginCursor h k).toList
  | .results documents => return documents
  | .related r => do
    let d ← beginRelated h r
    fillAll h (← ofAction d.toList)
  | .iterator _ => throw (.misuse .noMember)

/-- An iterator over what a handle holds; an iterator is its own. -/
def iterate (h : Nat) : SessionAction Nat := do
  match ← handle h with
  | .cursor k => do handOut (.iterator (.documents (← beginCursor h k)))
  | .results _ => handOut (.iterator (.results h 0))
  | .related _ => handOut (.iterator (.related h .waiting))
  | .iterator _ => return h

/-- Fills in the relations of one document. -/
def fillOne (h : Nat) (document : Value) : SessionAction Value := do
  let r ← relatedOf h
  let (filled, l) ← ofAction (r.relations.fill Action.lookups document r.lookedup)
  put h (.related { r with lookedup := l })
  return filled

/-- The reading of documents with relations after its begin: when there are relations, all are
read first, so that no look-up is made while their rows are still coming. -/
def beginReading (source : Nat) : SessionAction RelatedReading := do
  let r ← relatedOf source
  let d ← beginRelated source r
  if r.relations.isActive then return .gathered (← ofAction d.toList) else return .streaming d

/-- The next of documents with relations, and how far they are read after it. -/
def nextRelated (source : Nat) (reading : RelatedReading) :
    SessionAction (Option Value × RelatedReading) := do
  let reading ← match reading with
    | .waiting => beginReading source
    | reading => pure reading
  match reading with
  | .streaming d =>
    match ← ofAction d.next with
    | (none, _) => return (none, .finished)
    | (some v, d) => return (some (← fillOne source v), .streaming d)
  | .gathered (v :: rest) => return (some (← fillOne source v), .gathered rest)
  | _ => return (none, .finished)

/-- The next document of an iterator, and the iterator after it. -/
def nextOf (i : Iterator) : SessionAction (Option Value × Iterator) := do
  match i with
  | .documents d =>
    let (v, d) ← ofAction d.next
    return (v, .documents d)
  | .results source position =>
    match ← handle source with
    | .results documents =>
      match documents[position]? with
      | some v => return (some v, .results source (position + 1))
      | none => return (none, .finished)
    | _ => return (none, .finished)
  | .related source reading =>
    let (v, reading) ← nextRelated source reading
    return (v, .related source reading)
  | .finished => return (none, .finished)

/-- The next document of an iterator; one that fails is finished. -/
def next (h : Nat) : SessionAction (Option Value) := do
  match ← handle h with
  | .iterator i => do
    put h (.iterator .finished)
    let (v, i) ← nextOf i
    put h (.iterator i)
    return v
  | _ => throw (.misuse .wrongType)

/-- Up to so many next documents of an iterator, and whether it ended before there were so many. -/
def take (h : Nat) : Nat → SessionAction (List Value × Bool)
  | 0 => return ([], false)
  | n + 1 => do
    match ← next h with
    | none => return ([], true)
    | some v => do
      let (vs, ended) ← take h n
      return (v :: vs, ended)

/-- Leaves the rest of an iterator unread: it is finished, and an answer that it reads is closed. -/
def abandon (h : Nat) : SessionAction Unit := do
  match ← handle h with
  | .iterator i => do
    put h (.iterator .finished)
    match i with
    | .documents d | .related _ (.streaming d) => ofAction d.abandon
    | _ => pure ()
  | _ => throw (.misuse .wrongType)

/-- Relates documents: results are filled in at once, and others while they are read. -/
def relate (h : Nat) (kind : RelationKind) (relations : Value) : SessionAction Unit := do
  match ← handle h, relations with
  | .results documents, .object more => do
    let r := Relations.add {} kind more
    let (filled, _) ← ofAction (r.fillAll Action.lookups documents {})
    put h (.results filled)
  | .related r, .object more => put h (.related { r with relations := r.relations.add kind more })
  | _, _ => throw (.misuse .noMember)

/-- How often a value is among the results of a handle. -/
def occurrences (h : Nat) (v : Value) : SessionAction Nat := do
  match ← handle h with
  | .results documents => return documents.countP v.equals
  | _ => throw (.misuse .noMember)

/-- Whether the reading of a cursor has begun. -/
def isConsumed (h : Nat) : SessionAction Bool := do
  match ← handle h with
  | .cursor k => return k.isConsumed
  | _ => throw (.misuse .noMember)

end SessionAction

/-- What can be asked of a session. -/
inductive Request where
  | verb (v : Verb)
  /-- The results of a search. -/
  | find (name criteria : Value)
  /-- Documents of a search that are read later. -/
  | findLazily (name criteria : Value)
  /-- A cursor over a collection. -/
  | cursor (collection : Nat) (filter : Filter) (options : Value)
  | relate (handle : Nat) (kind : RelationKind) (relations : Value)
  | occurrences (handle : Nat) (v : Value)
  | toList (handle : Nat)
  | iterate (handle : Nat)
  | next (handle count : Nat)
  | isConsumed (handle : Nat)

/-- What a session replies. -/
inductive Response where
  | answer (a : Answer)
  /-- Something was handed out. -/
  | handle (h : Nat)
  /-- A cursor was handed out; with the greatest number of its documents. -/
  | cursor (h : Nat) (limit : Option Nat)
  /-- The next documents, and whether they were the last. -/
  | page (documents : List Value) (ended : Bool)

open SessionAction in
/-- Runs a request. -/
def Request.run : Request → SessionAction Response
  | .verb v => return .answer (← ofAction v.run)
  | .find name criteria => do
    let documents ← ofAction do
      let (c, filter, options) ← Action.search name criteria
      Action.find c filter options
    return .handle (← handOut (.results documents))
  | .findLazily name criteria => do
    let (c, filter, options) ← ofAction (Action.search name criteria)
    return .handle (← handOut (.related { cursor := ⟨c, filter, options, false⟩ }))
  | .cursor c filter options => do
    let options ← ofAction (Action.findOptions options)
    let h ← handOut (.cursor ⟨c, filter, options, false⟩)
    return .cursor h options.limit
  | .relate h kind relations => do
    SessionAction.relate h kind relations
    return .handle h
  | .occurrences h v => return .answer (.integer (← SessionAction.occurrences h v))
  | .toList h => return .answer (.documents (← SessionAction.toList h))
  | .iterate h => return .handle (← SessionAction.iterate h)
  | .next h count => do
    let (documents, ended) ← SessionAction.take h count
    return .page documents ended
  | .isConsumed h => return .answer (.truth (← SessionAction.isConsumed h))

end DocStore
