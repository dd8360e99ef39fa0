import DocStore.Text.Basic

/-!
The three database engines that documents are stored in.
-/

namespace DocStore

/-- A database engine. -/
inductive Engine where
  | mysql
  | pgsql
  | sqlite
  deriving DecidableEq

namespace Engine

/-- The name of an engine. -/
def name : Engine → Text
  | .mysql => "mysql"
  | .pgsql => "pgsql"
  | .sqlite => "sqlite"

/-- All engines. -/
def list : List Engine := [.mysql, .pgsql, .sqlite]

/-- The further names of the engines. -/
def aliases : List (Text × Engine) :=
  [("mariadb", .mysql), ("postgres", .pgsql), ("postgresql", .pgsql), ("sqlite3", .sqlite)]

/-- The engine of a name or further name. -/
def ofName? (name : Text) : Option Engine :=
  match aliases.lookup name with
  | some engine => some engine
  | none => list.find? fun engine => engine.name = name

end Engine

end DocStore
