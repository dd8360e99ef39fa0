import DocStore.Engine.Basic
import DocStore.Fault.Misuse
import DocStore.Filter.Fault
import DocStore.Options.Issue

/-!
Faults: everything that can go wrong. Those that the store reports have a
report; issues with options and misuse are told as they are.
-/

namespace DocStore

/-- A statement, or the quoting of a literal, that the database refused. -/
structure StatementFault where
  engine : Engine
  sql : Text
  /-- The database's words. -/
  error : Text
  /-- The database's code. -/
  code : Value

/-- A connection that could not be opened. -/
structure ConnectFault where
  engine : Engine
  host : Text
  database : Text
  error : Text
  code : Value

/-- Why a connection that can be opened is not one to the store. -/
inductive SetupFault where
  /-- The engine's library is not installed. -/
  | driverMissing (engine : Engine) (package : Text)
  /-- The server's version cannot be read. -/
  | versionUnreadable (raw cause : Text)
  /-- The server is older than the store needs. -/
  | versionTooOld (raw flavor version required : Text)
  /-- The server has no JSON functions. -/
  | jsonMissing (version cause : Text)

/-- Everything that can go wrong. -/
inductive Fault where
  | filter (fault : FilterFault)
  | setup (fault : SetupFault)
  | connect (fault : ConnectFault)
  | statement (fault : StatementFault)
  /-- A cursor of the collection has been iterated before. -/
  | consumed (collection : Text)
  /-- Connection options with issues. -/
  | options (issues : List Issue)
  /-- Other options with issues. -/
  | invalid (issues : List Issue)
  | misuse (fault : Misuse)

namespace Fault

instance : Coe Misuse Fault := ⟨.misuse⟩

instance : Coe ArgumentFault Fault := ⟨fun f => .filter (.argument f)⟩

end Fault

/-- The report of a refused statement. -/
def StatementFault.report (f : StatementFault) : Report :=
  { Report.of .statement
      ("SQL 실행에 실패했습니다 (code=" ++ f.code.toText ++ "): " ++ f.error) .statementFailed
      (some f.error) none
      [("sql", .str f.sql), ("error_code", f.code), ("dialect", .str f.engine.name)] with
    source := some f.error }

/-- The report of a connection that could not be opened. -/
def ConnectFault.report (f : ConnectFault) : Report :=
  { Report.of .store (f.engine.name ++ " 연결에 실패했습니다.") .connectionFailed
      (some f.error) none
      [("connection", .str f.engine.name), ("host", .str f.host), ("dbname", .str f.database),
        ("error_code", f.code)] with
    source := some f.error }

/-- The report of a connection that is not one to the store. -/
def SetupFault.report : SetupFault → Report
  | .driverMissing engine package =>
    .of .configuration (package ++ " 패키지가 설치되어 있지 않습니다.") .driverMissing
      (some (package ++ " 패키지를 불러올 수 없습니다.")) (some ("pip install " ++ package))
      [("connection", .str engine.name)]
  | .versionUnreadable raw cause =>
    .of .configuration "서버 버전을 확인할 수 없습니다." .versionUnsupported (some cause) none
      [("server_version", .str raw)]
  | .versionTooOld raw flavor version required =>
    .of .configuration ("지원하지 않는 서버 버전입니다: " ++ raw) .versionUnsupported
      (some (flavor ++ " " ++ version ++ " < " ++ required))
      (some (required ++ " 이상 버전의 서버를 사용하세요."))
      [("server_version", .str raw), ("flavor", .str flavor)]
  | .jsonMissing version cause =>
    .of .configuration "SQLite JSON1 확장을 사용할 수 없습니다." .driverMissing (some cause)
      (some ("JSON1 확장이 포함된 SQLite 빌드를 사용하세요." : Text))
      [("server_version", .str version)]

namespace Fault

/-- The fields that issues are about, each once and in order. -/
def issueFields (issues : List Issue) : List Text :=
  let fields := issues.filterMap fun issue => issue.location.head?
  (fields.foldl (fun acc f => if f ∈ acc then acc else f :: acc) []).mergeSort
    fun a b => !b.isLess a

/-- The report of connection options with issues. -/
def optionsReport (issues : List Issue) : Report :=
  let fields := issueFields issues
  .of .configuration "드라이버 옵션이 올바르지 않습니다."
    (if fields = [("connection" : Text)] then .unsupportedConnection else .optionsInvalid) none
    (some ("connection은 mysql, pgsql, sqlite 중 하나여야 합니다." : Text))
    [("fields", .list (fields.map .str))]

/-- The report of a cursor that has been iterated before. -/
def consumedReport (collection : Text) : Report :=
  .of .cursor "이미 소비된 커서입니다." .alreadyConsumed
    (some ("커서는 한 번만 순회할 수 있습니다." : Text))
    (some ("to_array()로 결과를 실체화해 재사용하세요." : Text))
    [("collection", .str collection)]

/-- The report of a fault, when it is one that the store reports. -/
def report? : Fault → Option Report
  | .filter fault => some fault.report
  | .setup fault => some fault.report
  | .connect fault => some fault.report
  | .statement fault => some fault.report
  | .consumed collection => some (consumedReport collection)
  | .options issues => some (optionsReport issues)
  | .invalid _ => none
  | .misuse _ => none

end Fault

end DocStore
