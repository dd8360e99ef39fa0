import DocStore.Value.Display

/-!
Reports: what a failure of the store tells its caller. A report has a message,
a code, perhaps a cause and a hint, and metadata; its text names the code
first and the cause last.
-/

namespace DocStore

/-- The classes of reported failures, from the general to the particular. -/
inductive ReportClass where
  | application
  | store
  | configuration
  | filter
  | cursor
  | statement
  deriving DecidableEq

namespace ReportClass

/-- The name of a class. -/
def name : ReportClass → Text
  | .application => "BaseAppException"
  | .store => "DocumentStoreError"
  | .configuration => "ConfigurationError"
  | .filter => "FilterCompileError"
  | .cursor => "CursorStateError"
  | .statement => "StatementError"

/-- A class with the classes that it is a part of. -/
def lineage : ReportClass → List ReportClass
  | .application => [.application]
  | .store => [.store, .application]
  | c => [c, .store, .application]

/-- All classes. -/
def all : List ReportClass := [.application, .store, .configuration, .filter, .cursor, .statement]

/-- The class of a name. -/
def ofName? (name : Text) : Option ReportClass := all.find? fun c => c.name = name

end ReportClass

/-- The codes of the store's own failures. -/
inductive Code where
  | unsupportedConnection
  | optionsInvalid
  | driverMissing
  | versionUnsupported
  | connectionFailed
  | statementFailed
  | invalidCondition
  | invalidArgument
  | operatorNotSupported
  | alreadyConsumed
  deriving DecidableEq

/-- The text of a code. -/
def Code.text : Code → Text
  | .unsupportedConnection => "DB_UNSUPPORTED_CONNECTION"
  | .optionsInvalid => "DB_OPTIONS_INVALID"
  | .driverMissing => "DB_DRIVER_MISSING"
  | .versionUnsupported => "DB_SERVER_VERSION_UNSUPPORTED"
  | .connectionFailed => "DB_CONNECTION_FAILED"
  | .statementFailed => "DB_STATEMENT_FAILED"
  | .invalidCondition => "FILTER_INVALID_CONDITION"
  | .invalidArgument => "FILTER_INVALID_ARGUMENT"
  | .operatorNotSupported => "FILTER_OPERATOR_NOT_SUPPORTED"
  | .alreadyConsumed => "CURSOR_ALREADY_CONSUMED"

/-- What is told about a failure beside its message. -/
structure Detail where
  code : Text
  cause : Option Text
  hint : Option Text
  metadata : Members

/-- A failure as it is told. -/
structure Report where
  family : ReportClass
  message : Text
  detail : Detail
  /-- The text of the error behind the failure, when there is one. -/
  source : Option Text

namespace Report

/-- A report with one of the store's codes. -/
def of (family : ReportClass) (message : Text) (code : Code) (cause hint : Option Text)
    (metadata : Members) : Report :=
  ⟨family, message, ⟨code.text, cause, hint, metadata⟩, none⟩

/-- The text of a report: code, message and a cause that is not empty. -/
def text (r : Report) : Text :=
  let head : Text := "[" ++ r.detail.code ++ "] " ++ r.message
  match r.detail.cause with
  | none => head
  | some [] => head
  | some cause => head ++ " (" ++ cause ++ ")"

/-- The statement that failed. -/
def sql (r : Report) : Value := (r.detail.metadata.get? "sql").getD .null

/-- The database's own code of the failure. -/
def errorCode (r : Report) : Value := (r.detail.metadata.get? "error_code").getD .null

/-- The report as an object. -/
def toValue (r : Report) : Value :=
  .object [
    ("type", .str r.family.name),
    ("code", .str r.detail.code),
    ("message", .str r.message),
    ("detail", .object [
      ("code", .str r.detail.code),
      ("cause", .ofText? r.detail.cause),
      ("hint", .ofText? r.detail.hint),
      ("metadata", .object r.detail.metadata)]),
    ("original", .ofText? (r.source.map fun t => "ValueError(" ++ t.quoted ++ ")"))]

end Report

end DocStore
