import DocStore.Fault.Misuse
import DocStore.Json.Decode
import DocStore.Json.Encode
import DocStore.Text.Utf8

/-!
Documents as a database holds them: their JSON text. A database may also hand
out a document that it has read itself, which is taken as it is.
-/

namespace DocStore

/-- The text under which a document is stored. -/
def storedText (document : Value) : Except Misuse Text :=
  match Json.encode document with
  | some t => .ok t
  | none => .error .wrongType

/-- The value that a JSON text writes. -/
def readJson (t : Text) : Except Misuse Value :=
  match Json.decode t with
  | .ok v => .ok v
  | .error .malformed => .error .notJson
  | .error .tooManyDigits => .error (.badValue "")

/-- The document that a cell of a row holds. -/
def storedDocument (cell : Value) : Except Misuse Value :=
  match cell with
  | .str t => readJson t
  | .bytes octets =>
    match Text.ofUtf8? octets with
    | some t => readJson t
    | none => .error .notUtf8
  | v => .ok v

end DocStore
