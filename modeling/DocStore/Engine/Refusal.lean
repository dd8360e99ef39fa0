import DocStore.Engine.Basic
import DocStore.Value.Display

/-!
Refusals: the errors that an engine's library raises. Each engine words them in
its own way and has codes of its own; one that has no code for an error gives
the name of the error's class.
-/

namespace DocStore

/-- An error of an engine's library, or one that comes through it from elsewhere. -/
structure Refusal where
  /-- The name of the error's class. -/
  family : Text
  text : Text
  code : Value
  /-- Whether the error is one of the library's own, which the store reports as its own. -/
  isOwn : Bool

namespace Refusal

/-- An error from elsewhere that the library passes on. -/
def foreign (text : Text) : Refusal := ⟨"ValueError", text, .null, false⟩

/-- The class of the warnings of one library, which are none of its errors. -/
def warningFamily : Text := "Warning"

/-- The class of the errors that a library raises by itself when it finds a function missing. -/
def operationalFamily : Text := "OperationalError"

/-- The classes of the errors that come from the database rather than from the library. -/
def databaseFamilies : List Text :=
  ["DatabaseError", operationalFamily, "IntegrityError", "ProgrammingError", "DataError",
    "InternalError", "NotSupportedError"]

/-- Whether an error comes from the database rather than from the library. -/
def isOfDatabase (r : Refusal) : Bool := r.isOwn && r.family ∈ databaseFamilies

end Refusal

/-- The words and the code of an error as an engine's library gives them. -/
def Engine.refusal (engine : Engine) (message : Text) (code : Value) (family : Text) : Refusal :=
  match engine with
  | .mysql =>
    match code with
    | .null => ⟨family, message, .int (-1), true⟩
    | code => ⟨family, code.toText ++ ": " ++ message, code, true⟩
  | .pgsql => ⟨family, message, code, true⟩
  | .sqlite =>
    ⟨family, message, if code.isTruthy then code else .str family,
      family ≠ Refusal.warningFamily⟩

end DocStore
