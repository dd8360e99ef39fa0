import DocStore.Dialect.Basic
import DocStore.Document.Collection
import DocStore.Engine.Refusal
import DocStore.Engine.Version
import DocStore.Journal.Basic
import DocStore.Options.Connection
import DocStore.Store.Statement

/-!
The store and what can happen to it. A store is one connection to a database
and the collections that were obtained from it. The database is known by what
it does: which rows it answers and which statements it refuses. All that was
done to it is kept in order, so that a run of the store can be looked at
afterwards.
-/

namespace DocStore

/-- A row of a result. -/
abbrev Row := List Value

/-- The answer to a query: rows, and perhaps an error after the last of them. -/
structure Reply where
  rows : List Row := []
  refusal : Option Refusal := none

/-- What the database will do. -/
structure Script where
  /-- The answers to the next queries; a query beyond them has no rows. -/
  replies : List Reply := []
  /-- The number of rows that a statement says it changed. -/
  affected : Value := .int 1
  /-- The statement that is refused, by its number from here on. -/
  failure : Option (Nat × Refusal) := none
  /-- The error that quoting a literal meets. -/
  quoting : Option Refusal := none
  /-- The texts whose quoting meets it. -/
  unquotable : Text → Bool := fun _ => true

/-- What opening a connection meets. -/
structure Server where
  /-- The server's version in its own words. -/
  version : Text
  /-- Whether the engine's library is installed. -/
  isInstalled : Bool := true
  /-- The error that connecting meets. -/
  connecting : Option Refusal := none
  /-- The error that setting up the journal of a file meets. -/
  journaling : Option Refusal := none
  /-- The error that the first use of JSON meets. -/
  probing : Option Refusal := none

/-- What was done to an engine's library. -/
inductive Event where
  /-- A connection was asked for. -/
  | connect (parameters : Members)
  /-- The character set of the connection was set. -/
  | charset (name : Text)
  /-- A function was made known to the database. -/
  | register (function : Text)
  /-- A statement of the connection itself was run. -/
  | probe (sql : Text)
  /-- A statement was sent; it has the number of its cursor. -/
  | send (cursor : Nat) (statement : Statement)
  /-- One more row was asked for; with whether there was one. -/
  | fetch (cursor : Nat) (found : Bool)
  /-- All rows were asked for. -/
  | fetchAll (cursor : Nat)
  /-- A cursor was closed. -/
  | close (cursor : Nat)
  /-- The connection was closed. -/
  | disconnect

/-- A collection: its identifier, its table, and whether the table is known to be there. -/
structure Collection where
  name : Text
  table : Text
  isReady : Bool

/-- A store. -/
structure Store where
  options : ConnectionOptions
  server : Server
  script : Script := {}
  /-- How many statements were sent since the script began. -/
  sent : Nat := 0
  isOpen : Bool := false
  /-- What was done to the library, the first first. -/
  trace : List Event := []
  /-- How many statements were ever sent. -/
  opened : Nat := 0
  /-- The logger that the store was given. -/
  logger : Logger
  journal : Journal := {}
  /-- The identifiers that documents get, by their number. -/
  identifiers : Nat → Text
  /-- How many identifiers were given away. -/
  given : Nat := 0
  /-- Every collection that was made, the first first. -/
  collections : List Collection := []
  /-- The collections that are handed out again, by their identifiers. -/
  registry : List (Text × Nat) := []

/-- What changes a store and may fail. -/
abbrev Action (α : Type) : Type := ExceptT Fault (StateM Store) α

namespace Store

/-- The engine of a store. -/
def engine (s : Store) : Engine := s.options.engine

/-- The context of what the store logs. -/
def context (s : Store) : LogContext := { dialect := some s.engine.name }

/-- The logger of a store and its connection. -/
def ownLogger (s : Store) : Logger := s.logger.within s.context

/-- The logger of a collection. -/
def collectionLogger (s : Store) (name : Text) : Logger :=
  s.ownLogger.within { collection := some name }

/-- The store that the database treats by a new script from here on. -/
def follow (s : Store) (script : Script) : Store := { s with script := script, sent := 0 }

end Store

namespace Action

/-- The value of a result that may be misuse. -/
def ofMisuse {α : Type} : Except Misuse α → Action α
  | .ok a => pure a
  | .error fault => throw (.misuse fault)

/-- The value of a result that may have issues. -/
def ofChecked {α : Type} : Checked α → Action α
  | .ok a => pure a
  | .error issues => throw (.invalid issues)

/-- Keeps what was done to the library. -/
def record (e : Event) : Action Unit := modify fun s => { s with trace := s.trace ++ [e] }

/-- Logs a message of the store. -/
def log (level : Level) (message : Text) (metadata : Members) : Action Unit :=
  modify fun s => { s with journal := s.ownLogger.log level message none metadata s.journal }

/-- Logs a message of a collection. -/
def logOf (name : Text) (level : Level) (message : Text) : Action Unit :=
  modify fun s => { s with
    journal := (s.collectionLogger name).log level message none [] s.journal }

/-- A new identifier. -/
def freshId : Action Text := do
  let s ← get
  set { s with given := s.given + 1 }
  return s.identifiers s.given

end Action

end DocStore
