import DocStore.Dialect.Basic
import DocStore.Json.Encode
import DocStore.Pattern.Delimited
import DocStore.Sql.Like

/-!
Conditions on one field. Each operator has a form in every dialect, and checks
its argument before the form is chosen, so that the dialects accept alike.
-/

namespace DocStore.Dialect

/-- The literal of a value as JSON. -/
def jsonLiteral (d : Dialect) (v : Value) : Except Fault Sql :=
  match Json.encode v with
  | some t => d.quoted t
  | none => .error ↑Misuse.wrongType

/-- A scalar as a JSON value of the engine that compares JSON with JSON. -/
def jsonValue (d : Dialect) (v : Value) : Except Fault Sql :=
  match v with
  | .str t => do return "JSON_QUOTE(" ++ (← d.textLiteral t) ++ ")"
  | v => do return "CAST(" ++ (← d.jsonLiteral v) ++ " AS JSON)"

/-- A field is an array that contains a scalar. -/
def has (d : Dialect) (field : Text) (v : Value) : Except Fault Sql :=
  match d.engine with
  | .mysql => do
    let target ← d.selector field false
    return "JSON_CONTAINS(" ++ target ++ ", " ++ (← d.jsonValue v) ++ ")"
  | .pgsql => do
    let target ← d.selector field false
    match v with
    | .str t => return target ++ " ? " ++ (← d.textLiteral t)
    | v => return target ++ " @> " ++ (← d.jsonLiteral (.list [v])) ++ "::jsonb"
  | .sqlite => do
    return "EXISTS (SELECT 1 FROM json_each(" ++ d.documentColumn ++ ", "
      ++ (← d.pathLiteral field) ++ ") WHERE json_each.value = " ++ (← d.literal v) ++ ")"

/-- Whether a value is a text. -/
def isText : Value → Bool
  | .str _ => true
  | _ => false

/-- A field is an array that contains all of some scalars. -/
def hasAll (d : Dialect) (field : Text) (vs : List Value) : Except Fault Sql :=
  match d.engine with
  | .mysql => do
    let target ← d.selector field false
    let items ← vs.mapM d.jsonValue
    return "JSON_CONTAINS(" ++ target ++ ", JSON_ARRAY(" ++ Sql.join ", " items ++ "))"
  | .pgsql => do
    let target ← d.selector field false
    if vs.all isText then
      return target ++ " ?& array[" ++ (← d.literals vs) ++ "]"
    else return target ++ " @> " ++ (← d.jsonLiteral (.list vs)) ++ "::jsonb"
  | .sqlite => do
    return "(" ++ Sql.join " AND " (← vs.mapM (d.has field)) ++ ")"

/-- A field matches a regular expression, in either case of letters. -/
def matchesPattern (d : Dialect) (selector : Sql) (pattern : Text) : Except Fault Sql := do
  let literal ← d.textLiteral pattern
  match d.engine with
  | .mysql => return "LOWER(" ++ selector ++ ") REGEXP LOWER(" ++ literal ++ ")"
  | .pgsql => return selector ++ " ~* " ++ literal
  | .sqlite => return selector ++ " REGEXP " ++ literal

/-- A field is an array of so many items. -/
def hasSize (d : Dialect) (field : Text) (size : Nat) : Except Fault Sql :=
  let count : Sql := [.number (Text.ofNat size)]
  match d.engine with
  | .mysql => do
    let target ← d.selector field false
    return "(JSON_TYPE(" ++ target ++ ") = " ++ Sql.fixed "ARRAY" ++ " AND JSON_LENGTH("
      ++ target ++ ") = " ++ count ++ ")"
  | .pgsql => do
    let target ← d.selector field false
    return "(CASE WHEN jsonb_typeof(" ++ target ++ ") = " ++ Sql.fixed "array"
      ++ " THEN jsonb_array_length(" ++ target ++ ") END) = " ++ count
  | .sqlite => do
    let path ← d.pathLiteral field
    return "(json_type(" ++ d.documentColumn ++ ", " ++ path ++ ") = " ++ Sql.fixed "array"
      ++ " AND json_array_length(" ++ d.documentColumn ++ ", " ++ path ++ ") = " ++ count ++ ")"

/-- A field leaves a remainder. -/
def leaves (d : Dialect) (field : Text) (divisor remainder : Number) : Except Fault Sql :=
  let modulus : Sql := [.number divisor.display]
  let rest : Sql := [.number remainder.display]
  match d.engine with
  | .mysql | .pgsql => do
    return "MOD(" ++ (← d.numericSelector field) ++ ", " ++ modulus ++ ") = " ++ rest
  | .sqlite => do
    return "(" ++ (← d.selector field true) ++ " % " ++ modulus ++ ") = " ++ rest

/-- The words after a pattern that name its escape, where the engine has none by itself. -/
def likeEscape (d : Dialect) : Sql :=
  match d.engine with
  | .mysql | .pgsql => []
  | .sqlite => " ESCAPE " ++ Sql.fixed "\\"

/-- The sign of a comparison. -/
def comparisonSign : Operator → String
  | .gt => ">"
  | .gte => ">="
  | .lt => "<"
  | _ => "<="

/-- A field compares with a scalar, as a number when the scalar is one. -/
def compares (d : Dialect) (op : Operator) (field : Text) (selector : Sql) (v : Value) :
    Except Fault Sql :=
  if !v.isScalar || v.isNull then .error ↑(ArgumentFault.comparison op)
  else do
    let target ← if v.isNumber then d.numericSelector field else pure selector
    return target ++ (" " ++ comparisonSign op ++ " ") ++ (← d.literal v)

/-- A field is, or is not, among scalars; none is a member of the empty list. -/
def among (d : Dialect) (op : Operator) (selector : Sql) (v : Value) : Except Fault Sql :=
  match v.items? with
  | none => .error ↑(ArgumentFault.membership op)
  | some [] => .ok (if op = .oneOf then "1 = 0" else "1 = 1")
  | some vs => do
    return selector ++ (if op = .oneOf then " IN (" else " NOT IN (") ++ (← d.literals vs) ++ ")"

/-- The regular expression of an argument. -/
def patternOf (v : Value) : Except ArgumentFault Text :=
  match v with
  | .pattern [] => .error .regex
  | .pattern t => .ok (Pattern.withoutDelimiters t)
  | .str [] => .error .regex
  | .str t => .ok (Pattern.withoutDelimiters t)
  | _ => .error .regex

/-- The divisor and the remainder of an argument; the remainder is zero when it is left out. -/
def divisionOf (v : Value) : Except ArgumentFault (Number × Number) :=
  let checked (divisor remainder : Value) : Except ArgumentFault (Number × Number) :=
    match divisor.number?, remainder.number? with
    | some m, some n => if m.isZero then .error .modNumbers else .ok (m, n)
    | _, _ => .error .modNumbers
  match v.items? with
  | some [divisor] => checked divisor (.int 0)
  | some [divisor, remainder] => checked divisor remainder
  | _ => .error .modShape

/-- The scalars of an argument that must be a list of them. -/
def scalarsOf (v : Value) : Except ArgumentFault (List Value) :=
  match v.items? with
  | none => .error .allList
  | some vs => if vs.all fun v => v.isScalar && !v.isNull then .ok vs else .error .allScalars

/-- The condition that an operator and its argument put on a field; `$options` puts none, since
it only goes with `$regex`. -/
def operator (d : Dialect) (op : Operator) (field : Text) (v : Value) :
    Except Fault (Option Sql) := do
  let selector ← d.selector field true
  match op with
  | .eq =>
    if v.isNull then return some (selector ++ " IS NULL")
    else return some (selector ++ " = " ++ (← d.literal v))
  | .ne =>
    if v.isNull then return some (selector ++ " IS NOT NULL")
    else return some (selector ++ " <> " ++ (← d.literal v))
  | .gt | .gte | .lt | .lte => some <$> d.compares op field selector v
  | .oneOf | .noneOf => some <$> d.among op selector v
  | .has =>
    if v.isNull || !v.isScalar then .error ↑ArgumentFault.has
    else some <$> d.has field v
  | .all =>
    match scalarsOf v with
    | .error fault => .error ↑fault
    | .ok [] => return some "1 = 0"
    | .ok vs => some <$> d.hasAll field vs
  | .regex =>
    match patternOf v with
    | .error fault => .error ↑fault
    | .ok pattern => some <$> d.matchesPattern selector pattern
  | .size =>
    match v with
    | .int (.ofNat n) => some <$> d.hasSize field n
    | _ => .error ↑ArgumentFault.size
  | .mod =>
    match divisionOf v with
    | .error fault => .error ↑fault
    | .ok (divisor, remainder) => some <$> d.leaves field divisor remainder
  | .present =>
    return some (selector ++ (if v.isTruthy then " IS NOT NULL" else " IS NULL"))
  | .text =>
    match v with
    | .str t =>
      return some (selector ++ " LIKE " ++ (← d.textLiteral (Like.containing t)) ++ d.likeEscape)
    | _ => .error ↑ArgumentFault.text
  | .options => return none
  | .func | .fuzzy => .error (.filter (.noSql op d.engine))

end DocStore.Dialect
