import DocStore.Engine.Basic
import DocStore.Fault.Basic
import DocStore.Options.Field
import DocStore.Value.Mapping

/-!
Connection options: the engine, where its server is and who connects, and
whatever else is passed on to the engine's library.
-/

namespace DocStore

/-- The options of a connection. -/
structure ConnectionOptions where
  engine : Engine
  host : Text := "127.0.0.1"
  port : Option Int := none
  database : Text
  charset : Option Text := none
  user : Option Text := none
  password : Option Text := none
  /-- What is passed on to the engine's library. -/
  extra : Members := []

namespace ConnectionOptions

/-- The options that are texts. -/
def textFields : List Text := ["host", "dbname", "charset", "username", "password"]

/-- An engine by its name or a further name, in either case and with blanks around it. -/
def engineField (location : List Text) : Value → Checked Engine
  | .str t =>
    match Engine.ofName? t.strip.lower with
    | some engine => .ok engine
    | none => .fail location .notListed
  | _ => .fail location .notListed

/-- The host of a server on the same machine. -/
def localHost : Text := "127.0.0.1"

/-- A text; a number stands for its numeral. -/
def nameField (location : List Text) (v : Value) : Checked Text :=
  match v.number? with
  | some n => .ok n.display
  | none => Field.text location v

/-- The options that the members of an object stand for. -/
def ofMembers (ms : Members) : Checked ConnectionOptions := do
  let (engine, host, port, database, charset, user, password, extra) ←
    Checked.both (Field.required engineField ms "connection") <|
    Checked.both (Field.withDefault localHost Field.text ms "host") <|
    Checked.both (Field.optional Field.integer ms "port") <|
    Checked.both (Field.required nameField ms "dbname") <|
    Checked.both (Field.optional Field.text ms "charset") <|
    Checked.both (Field.optional nameField ms "username") <|
    Checked.both (Field.optional nameField ms "password")
      (Field.withDefault [] Field.object ms "driver_options")
  return { engine, host, port, database, charset, user, password, extra }

/-- The options that a value stands for. -/
def ofValue (v : Value) : Except Fault ConnectionOptions :=
  match Members.ofValue v with
  | .error fault => .error (.misuse fault)
  | .ok ms =>
    match ofMembers ms with
    | .error issues => .error (.options issues)
    | .ok options => .ok options

/-- The port that is used: one that is not given, or zero, is the engine's own. -/
def portOr (o : ConnectionOptions) (standard : Int) : Int :=
  match o.port with
  | none => standard
  | some 0 => standard
  | some port => port

/-- The character set that is used: one that is not given, or empty, is the engine's own. -/
def charsetOr (o : ConnectionOptions) (standard : Text) : Text :=
  match o.charset with
  | none => standard
  | some [] => standard
  | some charset => charset

/-- Who connects, as parameters. -/
def credentials (o : ConnectionOptions) : Members :=
  Members.optional "user" (o.user.map .str) ++ Members.optional "password" (o.password.map .str)

/-- The parameters that the engine's library gets, those passed on last. -/
def parameters (o : ConnectionOptions) : Members :=
  let own : Members :=
    match o.engine with
    | .mysql =>
      let charset := o.charsetOr "utf8mb4"
      Members.one "host" (.str o.host) ++ Members.one "port" (.int (o.portOr 3306))
        ++ Members.one "database" (.str o.database) ++ Members.one "charset" (.str charset)
        ++ Members.one "autocommit" (.bool true) ++ Members.one "consume_results" (.bool true)
        ++ (if charset = ("utf8mb4" : Text) then
            Members.one "collation" (.str "utf8mb4_unicode_ci") else [])
        ++ o.credentials
    | .pgsql =>
      Members.one "host" (.str o.host) ++ Members.one "port" (.int (o.portOr 5432))
        ++ Members.one "dbname" (.str o.database) ++ o.credentials
    | .sqlite =>
      Members.one "timeout" (.float (Binary64.ofDecimal false 5 0))
        ++ Members.one "isolation_level" .null
        ++ Members.one "check_same_thread" (.bool false)
  own.overlay o.extra

end ConnectionOptions

/-- What is logged when a server's version was found to be one that the store works with. -/
def Engine.versionMessage (engine : Engine) (raw : Text) : Text :=
  engine.name ++ " 서버 버전 확인 완료: " ++ raw

/-- The name of what manages an engine's connections, under which it logs by itself. -/
def Engine.managerName : Engine → Text
  | .mysql => "MysqlConnectionManager"
  | .pgsql => "PostgresConnectionManager"
  | .sqlite => "SqliteConnectionManager"

end DocStore
