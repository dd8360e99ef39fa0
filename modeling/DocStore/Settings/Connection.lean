import DocStore.Options.Connection
import DocStore.Settings.Layers

/-!
Connection options from settings: a JSON file, a file of named values, the
environment and an object are merged in this order. The options that are texts
are taken as they stand.
-/

namespace DocStore.Settings

/-- Where the options of a connection are looked for. -/
structure Places where
  start : Text := standardStart
  jsonPath : Text := []
  dotenvPath : Text := []
  overrides : Value := .null

/-- The merged settings of a connection. -/
def connectionMembers (sources : Sources) (places : Places) : Except Misuse Members := do
  let asIs := ConnectionOptions.textFields
  let layers : Layers := {}
  let layers ← if places.jsonPath.isEmpty then pure layers
    else layers.addJsonFile sources places.jsonPath false
  let layers ← if places.dotenvPath.isEmpty then pure layers
    else layers.addDotenv sources places.dotenvPath places.start false asIs
  let layers ← layers.addEnvironment sources places.start asIs
  layers.build places.overrides

/-- The options of a connection. -/
def connection (sources : Sources) (places : Places) : Except Fault ConnectionOptions :=
  match connectionMembers sources places with
  | .error fault => .error (.misuse fault)
  | .ok ms => ConnectionOptions.ofValue (.object ms)

end DocStore.Settings
