import DocStore.Dialect.Basic

/-!
The tables of collections. A table has a key of its own and a column for the
documents; the `_id` of a document is unique by a computed column or by an
index over an expression.
-/

namespace DocStore.Dialect

/-- The name of the index over the ids of a table. -/
def indexName (table : Text) : Text := "idx_" ++ table ++ "_id"

/-- The statements that make the table of a collection, each unless it has been made. -/
def createStatements (d : Dialect) (table : Text) : Except Fault (List Sql) :=
  match d.engine with
  | .mysql => do
    let path ← d.pathLiteral "_id"
    let columns := d.engine.column "id" ++ " INT NOT NULL AUTO_INCREMENT PRIMARY KEY, "
      ++ d.documentColumn ++ " JSON NOT NULL, "
      ++ d.engine.column "_id_virtual"
      ++ " VARCHAR(255) GENERATED ALWAYS AS (JSON_UNQUOTE(JSON_EXTRACT("
      ++ d.documentColumn ++ ", " ++ path ++ "))) VIRTUAL UNIQUE"
    return ["CREATE TABLE IF NOT EXISTS " ++ (← d.identifier table) ++ " (" ++ columns
      ++ ") ENGINE=InnoDB DEFAULT CHARSET=utf8mb4 COLLATE=utf8mb4_unicode_ci"]
  | .pgsql => do
    let quoted ← d.identifier table
    let index ← d.identifier (indexName table)
    return ["CREATE TABLE IF NOT EXISTS " ++ quoted ++ " (" ++ d.engine.column "id"
        ++ " SERIAL PRIMARY KEY, " ++ d.documentColumn ++ " JSONB NOT NULL)",
      "CREATE UNIQUE INDEX IF NOT EXISTS " ++ index ++ " ON " ++ quoted ++ " (((" ++
        d.documentColumn ++ " ->> " ++ (← d.quoted "_id") ++ ")::text))"]
  | .sqlite => do
    let quoted ← d.identifier table
    let index ← d.identifier (indexName table)
    return ["CREATE TABLE IF NOT EXISTS " ++ quoted ++ " (" ++ d.engine.column "id"
        ++ " INTEGER PRIMARY KEY AUTOINCREMENT, " ++ d.documentColumn ++ " TEXT NOT NULL)",
      "CREATE UNIQUE INDEX IF NOT EXISTS " ++ index ++ " ON " ++ quoted ++ " ("
        ++ (← d.selector "_id" true) ++ ")"]

/-- The statements that make a table, as one text. -/
def createScript (d : Dialect) (table : Text) : Except Fault Sql := do
  return Sql.join ";\n" (← d.createStatements table)

/-- The query that counts the tables of a name. -/
def tableExists (d : Dialect) (table : Text) : Except Fault Sql := do
  let literal ← d.textLiteral table
  match d.engine with
  | .mysql =>
    return "SELECT COUNT(*) FROM information_schema.tables WHERE table_schema = DATABASE() AND table_name = "
      ++ literal
  | .pgsql =>
    return "SELECT COUNT(*) FROM information_schema.tables WHERE table_schema = current_schema() AND table_name = "
      ++ literal
  | .sqlite =>
    return "SELECT COUNT(*) FROM sqlite_master WHERE type = " ++ Sql.fixed "table"
      ++ " AND name = " ++ literal

/-- The statement that drops a table. -/
def dropStatement (d : Dialect) (table : Text) : Except Fault Sql := do
  return "DROP TABLE IF EXISTS " ++ (← d.identifier table)

end DocStore.Dialect
