import DocStore.Document.Projection
import DocStore.Document.Stored
import DocStore.Filter.Basic
import DocStore.Filter.Compile
import DocStore.Options.Find
import DocStore.Store.Collection

/-!
Documents read from a store. A search is compiled to a query without being run;
the query runs when its first document is asked for, and its rows are then read
one by one. What the database cannot do for a search is done on the way: a
predicate is asked about each document, and then the page is cut, after which
the fields are cut.
-/

namespace DocStore

-- Powers are those of the core library, whatever else is imported.
attribute [local instance (high + 1)] instPowNat

/-- A compiled search. -/
structure Query where
  collection : Nat
  statement : Statement
  /-- The predicate that is asked about each document. -/
  selects : Option (Value → Except Misuse Bool)
  /-- How many documents are left out here. -/
  skip : Nat
  /-- The greatest number of documents that are given here. -/
  limit : Option Nat
  projection : Option Projection

namespace Query

/-- The document of a row, when the predicate selects it. -/
def examine (q : Query) (row : Row) : Except Misuse (Option Value) :=
  match row with
  | [] => .error .noCell
  | cell :: _ => do
    let document ← storedDocument cell
    match q.selects with
    | none => return some document
    | some selects => return if ← selects document then some document else none

/-- A document cut to the fields that are asked for. -/
def project (q : Query) (document : Value) : Except Misuse Value :=
  match q.projection with
  | none => .ok document
  | some p => p.apply document

end Query

/-- How far the answer to a query was read. -/
inductive Reading where
  /-- The query has not been sent. -/
  | waiting
  /-- So much of the answer is left. -/
  | under (cursor : Nat) (rest : Reply)
  | finished

/-- The documents of a query, of which some may have been read. -/
structure Documents where
  query : Query
  reading : Reading := .waiting
  /-- How many documents are still left out. -/
  skip : Nat
  /-- How many documents are still given. -/
  left : Option Nat

namespace Query

/-- The documents of a query that has not been sent. -/
def documents (q : Query) : Documents where
  query := q
  skip := q.skip
  left := q.limit

end Query

namespace Action

/-- The greatest number of documents that a page may end at. -/
def pageLimit : Nat := 2 ^ (63 : Nat) - 1

/-- A page that is cut here, as the number to leave out and the number to give. -/
def pageOf (skip limit : Option Nat) : Except Misuse (Nat × Option Nat) :=
  let start := skip.getD 0
  let count := limit.filter (· ≠ 0)
  if pageLimit < start + count.getD 0 then .error (.badValue "") else .ok (start, count)

/-- A number that may be there, as a value. -/
def numberOr (n : Option Nat) : Value := (n.map fun n => .int n).getD .null

/-- A search as a query of the database. -/
def compile (c : Nat) (filter : Filter) (options : FindOptions) : Action Query := do
  let x ← collection c
  let order := (options.sort.map Value.object).getD .null
  let projection := options.projection.bind Projection.ofFields
  match filter with
  | .predicate selects =>
    let ordered ← inDialect fun d => d.orderClause order
    let (skip, limit) ← ofMisuse (pageOf options.skip options.limit)
    return ⟨c, .select x.table none ordered none, some selects, skip, limit, projection⟩
  | .criteria v =>
    let statement ← inDialect fun d => do
      let condition ← d.whereClause v
      let ordered ← d.orderClause order
      match Dialect.limitClause (numberOr options.limit) (numberOr options.skip) with
      | .ok page => return Statement.select x.table condition ordered page
      | .error fault => throw (.misuse fault)
    if (options.limit.getD 0) = 0 then
      let (skip, limit) ← ofMisuse (pageOf options.skip none)
      return ⟨c, statement, none, skip, limit, projection⟩
    else return ⟨c, statement, none, 0, none, projection⟩

/-- Fails because of a row, after its cursor was closed. -/
def failAtRow {α : Type} (cursor : Nat) (fault : Misuse) : Action α := do
  record (.close cursor)
  throw (.misuse fault)

/-- What one row comes to, when so many documents are still left out: a document, or nothing, and
how many are left out after it. -/
def takeRow (q : Query) (cursor skip : Nat) (row : Row) : Action (Option Value × Nat) := do
  record (.fetch cursor true)
  match q.examine row with
  | .error fault => failAtRow cursor fault
  | .ok none => return (none, skip)
  | .ok (some document) =>
    match skip with
    | n + 1 => return (none, n)
    | 0 =>
      match q.project document with
      | .error fault => failAtRow cursor fault
      | .ok v => return (some v, 0)

/-- The next document among rows, and what is left after it. -/
def nextAmong (d : Documents) (cursor : Nat) (refusal : Option Refusal) :
    Nat → List Row → Action (Option Value × Documents)
  | _, [] => do
    endRows cursor d.query.statement refusal
    return (none, { d with reading := .finished })
  | skip, row :: rest => do
    match ← takeRow d.query cursor skip row with
    | (none, skip) => nextAmong d cursor refusal skip rest
    | (some v, skip) =>
      return (some v,
        { d with reading := .under cursor ⟨rest, refusal⟩, skip, left := d.left.map (· - 1) })

/-- All documents among rows. -/
def allAmong (q : Query) (cursor : Nat) (refusal : Option Refusal) :
    Nat → Option Nat → List Row → Action (List Value)
  | _, some 0, _ => do
    record (.close cursor)
    return []
  | _, _, [] => do
    endRows cursor q.statement refusal
    return []
  | skip, left, row :: rest => do
    match ← takeRow q cursor skip row with
    | (none, skip) => allAmong q cursor refusal skip left rest
    | (some v, skip) => return v :: (← allAmong q cursor refusal skip (left.map (· - 1)) rest)

end Action

namespace Documents

/-- The documents after their query was sent, if it had not been. -/
def opened (d : Documents) : Action Documents :=
  match d.reading with
  | .waiting => do
    Action.ensureTable d.query.collection
    let (cursor, reply) ← Action.send d.query.statement
    return { d with reading := .under cursor reply }
  | _ => pure d

/-- The next document, and what is left after it. A page that is full ends here. -/
def next (d : Documents) : Action (Option Value × Documents) := do
  let d ← d.opened
  match d.reading with
  | .under cursor reply =>
    if d.left = some 0 then
      Action.record (.close cursor)
      return (none, { d with reading := .finished })
    else Action.nextAmong d cursor reply.refusal d.skip reply.rows
  | _ => return (none, d)

/-- All documents that are left. -/
def toList (d : Documents) : Action (List Value) := do
  let d ← d.opened
  match d.reading with
  | .under cursor reply =>
    Action.allAmong d.query cursor reply.refusal d.skip d.left reply.rows
  | _ => return []

/-- Leaves the rest of the documents unread. -/
def abandon (d : Documents) : Action Unit :=
  match d.reading with
  | .under cursor _ => Action.record (.close cursor)
  | _ => pure ()

/-- The first document, or null; the rest is left unread. -/
def first (d : Documents) : Action Value := do
  match ← d.next with
  | (none, _) => return .null
  | (some v, d) =>
    d.abandon
    return v

end Documents

namespace Action

/-- All documents of a search. -/
def find (c : Nat) (filter : Filter) (options : FindOptions) : Action (List Value) := do
  (← compile c filter options).documents.toList

/-- The first document of a search, or null. -/
def findOne (c : Nat) (filter : Filter) (options : FindOptions) : Action Value := do
  (← compile c filter { options with limit := some 1 }).documents.first

/-- The options of a search that a value stands for. -/
def findOptions (v : Value) : Action FindOptions := do
  ofChecked (← ofMisuse (FindOptions.ofValue v))

/-- The criteria of the document of an id. -/
def withIdOf (id : Value) : Filter := .criteria (.object (Members.one idField id))

end Action

end DocStore
