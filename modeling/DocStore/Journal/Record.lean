import DocStore.Journal.Context
import DocStore.Journal.Level
import DocStore.Journal.Timestamp
import DocStore.Json.Encode

/-!
Log records. The record of a statement carries it in its metadata, under one
key, so that a log tells which statements were sent.
-/

namespace DocStore

/-- A log record. -/
structure LogRecord where
  level : Level
  message : Text
  logger : Text
  context : Option LogContext
  metadata : Members

namespace LogRecord

/-- The key under which the record of a statement carries it. -/
def sqlKey : Text := "sql"

/-- What a record carries as its statement. -/
def sql (r : LogRecord) : Value := (r.metadata.get? sqlKey).getD .null

/-- The record as members; a context or metadata that are not there are left out. -/
def members (r : LogRecord) : Members :=
  Members.one "level" (.str r.level.name) ++ Members.one "logger" (.str r.logger)
    ++ Members.one "message" (.str r.message)
    ++ Members.optional "context" (r.context.map fun c => .object c.members)
    ++ (if r.metadata.isEmpty then [] else Members.one "metadata" (.object r.metadata))

/-- The line of a record at a point in time. -/
def line (r : LogRecord) (time : Timestamp) : Text :=
  (Json.write Json.spaced (.object (Members.one "timestamp" (.str time.text) ++ r.members))).getD []

/-- A level by its exact name. -/
def levelField (location : List Text) : Value → Checked Level
  | .str t =>
    match Level.ofName? t with
    | some level => .ok level
    | none => .fail location .notListed
  | _ => .fail location .notListed

/-- The record of a level, a message, a logger and metadata that may be of any type. -/
def ofValues (level message logger metadata : Value) (context : Option LogContext) :
    Checked LogRecord := do
  let (level, message, logger, metadata) ←
    Checked.both (levelField ["level"] level) <|
    Checked.both (Field.text ["message"] message) <|
    Checked.both (Field.text ["logger_name"] logger) (Field.object ["metadata"] metadata)
  return { level, message, logger, context, metadata }

/-- A point in time by its text. -/
def timeField (location : List Text) : Value → Checked Timestamp
  | .str t =>
    match Timestamp.ofText? t with
    | some time => .ok time
    | none => .fail location .timestampText
  | _ => .fail location .timestampText

/-- The record of the members of an object, with its point in time. -/
def ofMembers (ms : Members) : Checked (LogRecord × Timestamp) := do
  let context ←
    match ms.get? "context" with
    | none => pure none
    | some .null => pure none
    | some v => some <$> (Field.object ["context"] v >>= LogContext.ofMembers)
  let (level, message, time, logger, metadata) ←
    Checked.both (Field.required levelField ms "level") <|
    Checked.both (Field.required Field.text ms "message") <|
    Checked.both (Field.required timeField ms "timestamp") <|
    Checked.both (Field.required (fun _ => Field.text ["logger_name"]) ms "logger")
      (Field.withDefault [] Field.object ms "metadata")
  return ({ level, message, logger, context, metadata }, time)

end LogRecord

end DocStore
