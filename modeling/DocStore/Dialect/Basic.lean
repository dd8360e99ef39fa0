import DocStore.Fault.Basic
import DocStore.Path.Json
import DocStore.Path.TextArray
import DocStore.Sql.Identifier

/-!
Dialects. A dialect is an engine together with the way its connection quotes
text; here stand the literals of values and the selectors of fields.
-/

namespace DocStore

/-- An engine and the quoting of its connection. -/
structure Dialect where
  engine : Engine
  quote : Text → Except Fault Text

namespace Dialect

/-- A literal of a text, quoted by the connection. -/
def quoted (d : Dialect) (t : Text) : Except Fault Sql := do
  return [.literal (← d.quote t)]

/-- A literal of a text that must have a UTF-8 form. -/
def textLiteral (d : Dialect) (t : Text) : Except Fault Sql :=
  if t.isEncodable then d.quoted t else .error ↑ArgumentFault.notEncodable

/-- Whether numbers and truth values stand without quotes, as they do where a selector yields
values of the engine's own types. -/
def hasBareNumbers (d : Dialect) : Bool := d.engine = .sqlite

/-- A number as a literal. -/
def numberLiteral (d : Dialect) (n : Number) : Except Fault Sql :=
  if d.hasBareNumbers then .ok [.number n.display] else d.quoted n.display

/-- A truth value as a literal. -/
def truthLiteral (d : Dialect) (b : Bool) : Except Fault Sql :=
  if d.hasBareNumbers then .ok [.number (if b then "1" else "0")]
  else d.quoted (if b then "true" else "false")

/-- The literal of a scalar. -/
def literal (d : Dialect) (v : Value) : Except Fault Sql :=
  match v with
  | .null => .ok "NULL"
  | .bool b => d.truthLiteral b
  | .int n => d.numberLiteral (.int n)
  | .float x => d.numberLiteral (.float x)
  | .str t => d.textLiteral t
  | v => .error ↑(ArgumentFault.notScalar v.typeName)

/-- The literals of scalars, with commas between them. -/
def literals (d : Dialect) (vs : List Value) : Except Fault Sql := do
  return Sql.join ", " (← vs.mapM d.literal)

/-- The name of a table or column. -/
def identifier (d : Dialect) (name : Text) : Except Fault Sql :=
  match quoteName? d.engine.nameMark name with
  | .ok t => .ok [.identifier t]
  | .error fault => .error (.misuse fault)

/-- The column that holds the documents. -/
def documentColumn (d : Dialect) : Sql := d.engine.documentColumn

/-- The literal that names a field: a JSON path or a text array. -/
def pathLiteral (d : Dialect) (field : Text) : Except Fault Sql :=
  let path :=
    match d.engine with
    | .mysql | .sqlite => Path.json field
    | .pgsql => Path.textArray field
  match path with
  | .ok t => d.quoted t
  | .error fault => .error ↑fault

/-- The expression that yields a field, as text or as JSON. -/
def selector (d : Dialect) (field : Text) (asText : Bool) : Except Fault Sql := do
  let path ← d.pathLiteral field
  match d.engine with
  | .mysql => return d.documentColumn ++ (if asText then " ->> " else " -> ") ++ path
  | .pgsql => return d.documentColumn ++ (if asText then " #>> " else " #> ") ++ path
  | .sqlite => return "json_extract(" ++ d.documentColumn ++ ", " ++ path ++ ")"

/-- The expression that yields a field as a number. -/
def numericSelector (d : Dialect) (field : Text) : Except Fault Sql :=
  match d.engine with
  | .mysql => do
    return "CAST(" ++ (← d.selector field true) ++ " AS DECIMAL(65, 30))"
  | .pgsql => do
    return "(CASE WHEN jsonb_typeof(" ++ (← d.selector field false) ++ ") = "
      ++ Sql.fixed "number" ++ " THEN (" ++ (← d.selector field true) ++ ")::numeric END)"
  | .sqlite => d.selector field true

end Dialect

end DocStore
