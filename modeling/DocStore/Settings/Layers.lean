import DocStore.Fault.Misuse
import DocStore.Journal.Basic
import DocStore.Settings.Dotenv
import DocStore.Text.Utf8
import DocStore.Value.Mapping

/-!
Settings in layers. A layer comes from an object, a JSON file, a file of named
values or the environment. Later layers win, and objects merge key by key.
-/

namespace DocStore.Settings

/-- Members merged over others: objects merge key by key, and whatever else is given wins. -/
def merge (base : Members) : List (Text × Value) → Members
  | [] => base
  | (key, .object inner) :: rest =>
    match base.get? key with
    | some (.object current) => merge (base.insert key (.object (merge current inner))) rest
    | _ => merge (base.insert key (.object inner)) rest
  | (key, v) :: rest => merge (base.insert key v) rest

/-- Files by their paths. -/
abbrev Files := List (Text × List UInt8)

/-- Where settings are taken from. -/
structure Sources where
  files : Files := []
  environment : Environment := []

/-- The layers that were added, the first first, and what was logged. -/
structure Layers where
  layers : List (Text × Members) := []
  journal : Journal := {}

namespace Layers

/-- The logger of the layers. -/
def logger : Logger where
  name := "ConfigLoader"

/-- The names of the layers in order. -/
def names (s : Layers) : List Text := s.layers.map (·.1)

/-- Keys in their order as texts. -/
def sortedKeys (ms : Members) : List Text := ms.keys.mergeSort fun a b => !b.isLess a

/-- The layers with one more; an empty one is not added. -/
def push (s : Layers) (name : Text) (layer : Members) : Layers where
  layers := if layer.isEmpty then s.layers else s.layers ++ [(name, layer)]
  journal :=
    if layer.isEmpty then s.journal
    else logger.log .debug ("설정 계층 추가: " ++ name) none
      [("keys", .list ((sortedKeys layer).map .str))] s.journal

/-- The layers with an object added; what counts as false is none. -/
def addObject (s : Layers) (data : Value) (name : Text) : Except Misuse Layers :=
  if data.isTruthy then do return s.push name (← Members.ofValue data) else .ok s

/-- The parts of a path, those left out that name the same place. -/
def pathParts (path : Text) : List Text :=
  (path.split '/').filter fun part => !part.isEmpty && part ≠ ("." : Text)

/-- The file of a path. -/
def file? (files : Files) (path : Text) : Option (List UInt8) :=
  (files.find? fun f => pathParts f.1 = pathParts path).map (·.2)

/-- The layers with a file added by the way in which it is read. One that is not there is skipped
with a warning, unless it must be there. -/
def addFile (s : Layers) (sources : Sources) (path : Text) (required : Bool)
    (read : List UInt8 → Except Misuse Layers) : Except Misuse Layers :=
  if path.isEmpty then .error .emptyPath
  else
    match file? sources.files path with
    | some octets => read octets
    | none =>
      if required then .error (.missingFile path)
      else .ok { s with
        journal := logger.log .warning ("설정 파일이 없어 건너뜁니다: " ++ path) none [] s.journal }

/-- The object that a JSON file holds. -/
def readObject (path : Text) (octets : List UInt8) : Except Misuse Members :=
  match Text.ofUtf8? octets with
  | none => .error .notUtf8
  | some t =>
    match Json.decode t with
    | .error .malformed => .error (.malformedFile path)
    | .error .tooManyDigits => .error (.badValue "")
    | .ok (.object ms) => .ok ms
    | .ok _ => .error (.fileNotObject path)

/-- The layers with a JSON file added. -/
def addJsonFile (s : Layers) (sources : Sources) (path : Text) (required : Bool) :
    Except Misuse Layers :=
  s.addFile sources path required fun octets => do
    return s.push ("json:" ++ path) (← readObject path octets)

/-- The settings of named values. -/
def named (env : Environment) (start : Text) (asIs : List Text) : Except Misuse Members :=
  match ofNamed env start asIs with
  | .ok ms => .ok ms
  | .error _ => .error (.badValue "")

/-- A text in which every end of a line is one newline. -/
def unixLines : Text → Text
  | [] => []
  | [c] => if c = '\r' then ['\n'] else [c]
  | c :: d :: t =>
    if c = '\r' then
      if d = '\n' then '\n' :: unixLines t else '\n' :: unixLines (d :: t)
    else c :: unixLines (d :: t)

/-- The layers with a file of named values added. -/
def addDotenv (s : Layers) (sources : Sources) (path start : Text) (required : Bool)
    (asIs : List Text) : Except Misuse Layers :=
  s.addFile sources path required fun octets =>
    match Text.ofUtf8? octets with
    | none => .error .notUtf8
    | some t => do
      let values := Dotenv.values sources.environment (unixLines t)
      return s.push ("dotenv:" ++ path) (← named values start asIs)

/-- The layers with the environment added. -/
def addEnvironment (s : Layers) (sources : Sources) (start : Text) (asIs : List Text) :
    Except Misuse Layers := do
  return s.push "env" (← named sources.environment start asIs)

/-- The layers merged in order. -/
def merged (s : Layers) : Members := s.layers.foldl (fun base layer => merge base layer.2) []

/-- The layers merged in order, with an object over them; what counts as false is none. -/
def build (s : Layers) (overrides : Value) : Except Misuse Members :=
  if overrides.isTruthy then do return merge s.merged (← Members.ofValue overrides) else .ok s.merged

end Layers

/-- The prefix of the names that settings of a connection have in an environment. -/
def standardStart : Text := "MONGO_HYBRID__"

end DocStore.Settings
