import DocStore.Fault.Misuse
import DocStore.Journal.Record

/-!
Journals and loggers. A journal keeps records in order, the latest ones when it
is bounded. Any number of loggers write to one journal; each leaves out what is
below its least level and merges its context into every record.
-/

namespace DocStore

/-- The records that are kept and the records that were printed, in order. -/
structure Journal where
  /-- The greatest number of records that are kept. -/
  capacity : Option Nat := none
  records : List LogRecord := []
  printed : List LogRecord := []

namespace Journal

/-- A journal of a capacity, which must keep at least one record. -/
def ofCapacity (capacity : Option Int) : Except Misuse Journal :=
  match capacity with
  | none => .ok {}
  | some n => if n ≤ 0 then .error .noRecords else .ok { capacity := some n.toNat }

/-- The last items of a list. -/
def latest {α : Type} (n : Nat) (as : List α) : List α := as.drop (as.length - n)

/-- The journal with a record added; the oldest goes when there are too many. -/
def add (j : Journal) (r : LogRecord) : Journal :=
  let records := j.records ++ [r]
  { j with records := match j.capacity with
      | none => records
      | some n => latest n records }

/-- The journal without its records. -/
def clear (j : Journal) : Journal := { j with records := [] }

/-- What the records carry as statements, where they carry one. -/
def statements (j : Journal) : List Value :=
  (j.records.map (·.sql)).filter (·.isTruthy)

end Journal

/-- A logger. -/
structure Logger where
  name : Text
  context : Option LogContext := none
  /-- The least level that is recorded. -/
  least : Level := .debug
  /-- Whether records are printed too. -/
  prints : Bool := false

namespace Logger

/-- A logger whose records are about something more. -/
def within (l : Logger) (context : LogContext) : Logger :=
  { l with context := LogContext.merge? l.context (some context) }

/-- Whether records of a level are recorded. -/
def accepts (l : Logger) (level : Level) : Bool := l.least.weight ≤ level.weight

/-- The journal with a record added and, when the logger prints, printed. -/
def write (l : Logger) (r : LogRecord) (j : Journal) : Journal :=
  let j := j.add r
  if l.prints then { j with printed := j.printed ++ [r] } else j

/-- The journal after a message was logged. -/
def log (l : Logger) (level : Level) (message : Text) (context : Option LogContext)
    (metadata : Members) (j : Journal) : Journal :=
  if l.accepts level then
    l.write ⟨level, message, l.name, LogContext.merge? l.context context, metadata⟩ j
  else j

/-- The journal after a message of any type was logged with metadata of any type; whatever counts
as false stands for no metadata. -/
def logValues (l : Logger) (level : Level) (message : Value) (context : Option LogContext)
    (metadata : Value) (j : Journal) : Checked Journal :=
  if !l.accepts level then .ok j
  else do
    let metadata := if metadata.isTruthy then metadata else .object []
    let r ← LogRecord.ofValues (.str level.name) message (.str l.name) metadata
      (LogContext.merge? l.context context)
    return l.write r j

/-- The words of the environment that turn printing on. -/
def printWords : List Text := ["1", "true", "yes", "on"]

/-- The variable that turns printing on. -/
def printVariable : Text := "MONGO_HYBRID_LOG_STDOUT"

/-- The variable that names the least level. -/
def levelVariable : Text := "MONGO_HYBRID_LOG_LEVEL"

/-- A logger whose level and printing are taken from the environment where they are not given. -/
def ofEnvironment (env : List (Text × Text)) (name : Text) (context : Option LogContext)
    (prints : Option Bool) (least : Option Level) : Logger where
  name := name
  context := context
  least := least.getD (Level.parse (env.lookup levelVariable) .debug)
  prints := prints.getD
    (decide (Text.lower (Text.strip ((env.lookup printVariable).getD [])) ∈ printWords))

/-- The capacity of the journal that a logger has by default. -/
def defaultCapacity : Nat := 1000

end Logger

end DocStore
