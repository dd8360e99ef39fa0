import DocStore.Dialect.Schema
import DocStore.Store.Connection
import DocStore.Value.Integer

/-!
The collections of a store. A collection that was obtained once is handed out
again until it is dropped or the store is closed. Its table is made when it is
obtained, and once more before its next use when it was dropped.
-/

namespace DocStore

namespace Store

/-- The store with a collection's table known to be there, or not. -/
def setReady (s : Store) (c : Nat) (isReady : Bool) : Store :=
  { s with collections := s.collections.modify c fun x => { x with isReady := isReady } }

/-- The store with one more collection, which is handed out again from now on. -/
def register (s : Store) (x : Collection) : Store :=
  { s with
    collections := s.collections ++ [x]
    registry := s.registry ++ [(x.name, s.collections.length)] }

/-- The store that makes a collection anew when it is asked for it again. -/
def forget (s : Store) (name : Text) : Store :=
  { s with registry := s.registry.filter fun entry => entry.1 ≠ name }

end Store

namespace Action

/-- The collection of a number. -/
def collection (c : Nat) : Action Collection := do
  match (← get).collections[c]? with
  | some x => pure x
  | none => throw (.misuse .noMember)

/-- Sends statements that make a table. -/
def sendAll (table : Text) : List Sql → Action Unit
  | [] => pure ()
  | sql :: rest => do
    let _ ← change (.create table sql)
    sendAll table rest

/-- Makes a table. -/
def makeTable (table : Text) : Action Unit := do
  sendAll table (← inDialect fun d => d.createStatements table)

/-- Logs that the table of a collection is there. -/
def logReady (name table : Text) : Action Unit :=
  logOf name .info ("컬렉션 테이블 준비 완료: " ++ table)

/-- Makes the table of a collection unless it is known to be there. -/
def ensureTable (c : Nat) : Action Unit := do
  let x ← collection c
  if !x.isReady then
    makeTable x.table
    modify fun s => s.setReady c true
    logReady x.name x.table

/-- A collection made anew, with its number. -/
def makeCollection (name : Text) : Action Nat := do
  makeTable (tableName name)
  logReady name (tableName name)
  let s ← get
  set (s.register ⟨name, tableName name, true⟩)
  return s.collections.length

/-- The number of a collection, which is made when it is not there. -/
def obtain (id : Value) : Action Nat := do
  if !id.isKey then throw (.misuse .wrongType)
  let name ← ofMisuse (collectionName id)
  match (← get).registry.lookup name with
  | some c => return c
  | none => makeCollection name

/-- Drops the table of a collection, which is made anew when it is asked for again. -/
def drop (c : Nat) : Action Unit := do
  let x ← collection c
  let sql ← inDialect fun d => d.dropStatement x.table
  let _ ← change (.drop x.table sql)
  modify fun s => s.setReady c false
  logOf x.name .info ("컬렉션 테이블 삭제 완료: " ++ x.table)
  modify fun s => s.forget x.name
  log .info ("컬렉션 캐시 제거: " ++ x.name) []

/-- The integer in the first cell of the first row; `fallback` when there is no row. -/
def firstInteger (fallback : Int) : List Row → Except Misuse Int
  | [] => .ok fallback
  | [] :: _ => .error .noCell
  | (cell :: _) :: _ => cell.toInt

/-- Whether a collection has a table; none is made. -/
def hasTable (id : Value) : Action Bool := do
  let name ← ofMisuse (collectionName id)
  let sql ← inDialect fun d => d.tableExists (tableName name)
  let count ← ofMisuse (firstInteger 0 (← rows (.presence sql)))
  return 0 < count

/-- Closes the store: no collection is handed out again. -/
def close : Action Unit := do
  modify fun s => { s with registry := [] }
  disconnect

end Action

end DocStore
