import DocStore.Sql.Quoting
import DocStore.Store.Basic

/-!
The connection of a store. Statements are sent one by one, and each is logged
before it is sent; what the database refuses is logged once more, with its
code, and reported. A connection is opened only to a server that is new enough.
-/

namespace DocStore

/-- What quoting is called where a statement is reported. -/
def Engine.quotingMark : Engine → Text
  | .sqlite => "SELECT quote(?)"
  | .mysql | .pgsql => "-- literal quoting"

/-- The name of an engine as people write it. -/
def Engine.title : Engine → Text
  | .mysql => "MySQL"
  | .pgsql => "PostgreSQL"
  | .sqlite => "SQLite"

/-- The package that holds an engine's library, when it does not come with the system. -/
def Engine.package? : Engine → Option Text
  | .mysql => some "mysql-connector-python"
  | .pgsql => some "psycopg2-binary"
  | .sqlite => none

namespace Store

/-- The fault that a refused statement is. -/
def refused (s : Store) (sql : Text) (r : Refusal) : Fault :=
  if r.isOwn then .statement ⟨s.engine, sql, r.text, r.code⟩
  else .misuse (.library r.family r.text)

/-- The error that quoting meets, for the texts that meet it; one engine's library quotes without
asking its server. -/
def quotingRefusal (s : Store) : Option Refusal :=
  match s.engine with
  | .mysql => none
  | .pgsql | .sqlite => s.script.quoting

/-- A text as a literal, quoted by the connection, which must be open. -/
def quote (s : Store) (t : Text) : Except Fault Text :=
  if !s.isOpen then .error (.misuse (.notConnected s.engine.name))
  else
    match s.quotingRefusal.filter fun _ => s.script.unquotable t with
    | some r => .error (s.refused s.engine.quotingMark r)
    | none =>
      match s.engine.quote t with
      | .ok literal => .ok literal
      | .error fault => .error (.misuse fault)

/-- The dialect of a store, which quotes by its connection. -/
def dialect (s : Store) : Dialect := ⟨s.engine, s.quote⟩

/-- The answer to the next query, and the script after it. -/
def nextReply (script : Script) : Reply × Script :=
  match script.replies with
  | [] => ({}, script)
  | reply :: rest => (reply, { script with replies := rest })

end Store

namespace Action

/-- Logs a refused statement with its code; no other fault is logged. -/
def logRefused : Fault → Action Unit
  | .statement f =>
    log .error ("SQL 실행 실패: " ++ f.error)
      (Members.one "sql" (.str f.sql) ++ Members.one "error_code" f.code)
  | _ => pure ()

/-- Fails, and logs a refused statement. -/
def fail {α : Type} (fault : Fault) : Action α := do
  logRefused fault
  throw fault

/-- What is put together in the store's dialect. -/
def inDialect {α : Type} (f : Dialect → Except Fault α) : Action α := do
  match f (← get).dialect with
  | .ok a => pure a
  | .error fault => fail fault

/-- Whether a statement has rows. -/
def isQuery (text : Text) : Bool := text.startsWith "SELECT"

/-- Sends a statement: the number of its cursor and the answer. -/
def send (statement : Statement) : Action (Nat × Reply) := do
  let s ← get
  if !s.isOpen then throw (.misuse (.notConnected s.engine.name))
  let text := statement.text s.engine
  log .debug "SQL 실행" (Members.one LogRecord.sqlKey (.str text))
  record (.send s.opened statement)
  modify fun s => { s with sent := s.sent + 1, opened := s.opened + 1 }
  match s.script.failure with
  | some (number, r) => if number = s.sent then fail (s.refused text r)
  | none => pure ()
  if isQuery text then
    let (reply, script) := Store.nextReply s.script
    modify fun s => { s with script := script }
    return (s.opened, reply)
  else return (s.opened, {})

/-- Fails because the database stopped in the middle of an answer; its cursor is closed. -/
def failReading {α : Type} (cursor : Nat) (statement : Statement) (r : Refusal) : Action α := do
  record (.close cursor)
  let s ← get
  fail (s.refused (statement.text s.engine) r)

/-- Sends a statement without rows: how many rows it changed. -/
def change (statement : Statement) : Action Value := do
  let (cursor, _) ← send statement
  record (.close cursor)
  return (← get).script.affected

/-- Sends a query and reads all its rows at once. -/
def rows (statement : Statement) : Action (List Row) := do
  let (cursor, reply) ← send statement
  record (.fetchAll cursor)
  match reply.refusal with
  | some r => failReading cursor statement r
  | none =>
    record (.close cursor)
    return reply.rows

/-- Asks for a row after the last one. -/
def endRows (cursor : Nat) (statement : Statement) (refusal : Option Refusal) : Action Unit := do
  record (.fetch cursor false)
  match refusal with
  | some r => failReading cursor statement r
  | none => record (.close cursor)

/-- Reads rows one by one up to their end. -/
def readEach (cursor : Nat) (statement : Statement) (refusal : Option Refusal) :
    List Row → Action (List Row)
  | [] => do
    endRows cursor statement refusal
    return []
  | row :: rest => do
    record (.fetch cursor true)
    return row :: (← readEach cursor statement refusal rest)

/-- Sends a query and reads its rows one by one. -/
def eachRow (statement : Statement) : Action (List Row) := do
  let (cursor, reply) ← send statement
  readEach cursor statement reply.refusal reply.rows

/-- A literal of a text. -/
def quoted (t : Text) : Action Text := inDialect fun d => d.quote t

/-! ### Opening and closing -/

/-- The parameters of the library's connect function, where the name of a database file comes
first and must not be given twice. -/
def connectParameters (o : ConnectionOptions) : Except Misuse Members :=
  match o.engine with
  | .mysql | .pgsql => .ok o.parameters
  | .sqlite =>
    if Members.has o.extra "database" then .error .wrongType
    else .ok (Members.one "database" (.str o.database) ++ o.parameters)

/-- Fails because the library could not connect. -/
def failConnecting (r : Refusal) : Action Unit := do
  if r.isOwn then
    let s ← get
    log .error (s.engine.name ++ " 연결 실패: " ++ r.text) []
    throw (.connect ⟨s.engine, s.options.host, s.options.database, r.text, r.code⟩)
  else throw (.misuse (.library r.family r.text))

/-- Sets up the journal of a database file; where the database refuses it, this is only logged. -/
def setUpJournal : Action Unit := do
  let s ← get
  if s.options.database ≠ (":memory:" : Text) then
    record (.probe "PRAGMA journal_mode=WAL")
    match s.server.journaling with
    | none => pure ()
    | some r =>
      if r.isOfDatabase then log .warning ("SQLite PRAGMA 적용 경고: " ++ r.text) []
      else throw (.misuse (.library r.family r.text))

/-- What an engine's connection needs before its first statement. -/
def setUp : Action Unit := do
  let s ← get
  match s.engine with
  | .mysql => pure ()
  | .pgsql => record (.charset (s.options.charsetOr "UTF8"))
  | .sqlite =>
    record (.register "REGEXP")
    setUpJournal

/-- Opens the connection unless it is open. -/
def connect : Action Unit := do
  let s ← get
  match s.engine.package? with
  | some package =>
    if !s.server.isInstalled then throw (.setup (.driverMissing s.engine package))
  | none => pure ()
  if s.isOpen then return
  let parameters ← ofMisuse (connectParameters s.options)
  record (.connect parameters)
  match s.server.connecting with
  | some r => failConnecting r
  | none => pure ()
  modify fun s => { s with isOpen := true }
  setUp
  log .info (s.engine.title ++ " 연결이 초기화되었습니다.") []

/-- Closes the connection if it is open. -/
def disconnect : Action Unit := do
  let s ← get
  if s.isOpen then
    record .disconnect
    modify fun s => { s with isOpen := false }
    log .info (s.engine.name ++ " 연결이 종료되었습니다.") []

/-- Makes sure that the database has functions for JSON, where it may lack them. -/
def probeJson : Action Unit := do
  let s ← get
  match s.engine with
  | .mysql | .pgsql => pure ()
  | .sqlite =>
    record (.probe "SELECT json('\x7b\x7d')")
    match s.server.probing with
    | none => pure ()
    | some r =>
      if r.isOwn && r.family = Refusal.operationalFamily then
        throw (.setup (.jsonMissing s.server.version r.text))
      else throw (.misuse (.library r.family r.text))

/-- Makes sure that the server is one that the store works with. -/
def checkServer : Action Unit := do
  let s ← get
  match s.engine.checkVersion s.server.version with
  | .error fault => throw (.setup fault)
  | .ok () =>
    log .info (s.engine.versionMessage s.server.version) []
    probeJson

/-- Makes sure that the server is one that the store works with, and closes the connection when it
is not. -/
def checkServerOrClose : Action Unit :=
  tryCatch checkServer fun fault => do
    match fault with
    | .setup _ => disconnect
    | _ => pure ()
    throw fault

/-- Logs that a store is made, before it has an engine of its own. -/
def announce : Action Unit := do
  let s ← get
  let message := "드라이버 생성: connection=" ++ s.engine.name
  set { s with journal := s.logger.log .info message none [] s.journal }

/-- Opens a store. -/
def start : Action Unit := do
  announce
  connect
  checkServerOrClose
  log .info "문서 저장소 드라이버가 초기화되었습니다." []

end Action

end DocStore
