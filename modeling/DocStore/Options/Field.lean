import DocStore.Options.Issue
import DocStore.Options.Numeral
import DocStore.Text.Case

/-!
Reading the members of an options object. Each reading accepts the values that
can stand for one of its type, such as `"5.0"` for an integer or `"yes"` for a
truth value, and names an issue for every other.
-/

namespace DocStore.Field

-- Powers are those of the core library, whatever else is imported.
attribute [local instance (high + 1)] instPowNat

/-- The value of a member; an absent one counts as null. -/
def get (ms : Members) (name : Text) : Value := (ms.get? name).getD .null

/-- A member that may be absent or null. -/
def optional {α : Type} (read : List Text → Value → Checked α) (ms : Members) (name : Text) :
    Checked (Option α) :=
  match get ms name with
  | .null => .ok none
  | v => (read [name] v).map some

/-- A member that must be there. -/
def required {α : Type} (read : List Text → Value → Checked α) (ms : Members) (name : Text) :
    Checked α :=
  match ms.get? name with
  | none => .fail [name] .missing
  | some v => read [name] v

/-- A member that takes a default when it is absent. -/
def withDefault {α : Type} (fallback : α) (read : List Text → Value → Checked α) (ms : Members)
    (name : Text) : Checked α :=
  match ms.get? name with
  | none => .ok fallback
  | some v => read [name] v

/-- A text. -/
def text (location : List Text) : Value → Checked Text
  | .str t => .ok t
  | _ => .fail location .notText

/-- An object. -/
def object (location : List Text) : Value → Checked Members
  | .object ms => .ok ms
  | _ => .fail location .notObject

/-- Any value. -/
def any (_ : List Text) (v : Value) : Checked Value := .ok v

/-- An object whose values are all read alike. -/
def objectOf {α : Type} (read : List Text → Value → Checked α) (location : List Text) :
    Value → Checked (List (Text × α))
  | .object ms =>
    Checked.all (fun (key, v) => (read (location ++ [key]) v).map fun x => (key, x)) ms
  | _ => .fail location .notObject

/-- Whether an integer and its negative both have 64 bits. -/
def isWord (n : Int) : Bool := n.natAbs < 2 ^ (63 : Nat)

/-- The integer that a float is, when it is one of 64 bits. -/
def integerOfFloat (location : List Text) (x : Binary64) : Checked Int :=
  if !x.isFinite then .fail location .finiteNumber
  else
    match x.toInt? with
    | none => .fail location .integerFraction
    | some n => if isWord n then .ok n else .fail location .integerSize

/-- The integer that a text writes; text that has no UTF-8 form writes none. -/
def integerOfText (location : List Text) (t : Text) : Checked Int :=
  if !t.isEncodable then .fail location .notUnicode
  else
    match Numeral.integer t with
    | .ok n => .ok n
    | .error .malformed => .fail location .integerText
    | .error .tooManyDigits => .fail location .integerSize

/-- An integer: truth values count as zero and one, whole floats and numerals are taken. -/
def integer (location : List Text) : Value → Checked Int
  | .bool b => .ok b.toNat
  | .int n => .ok n
  | .float x => integerOfFloat location x
  | .str t => integerOfText location t
  | _ => .fail location .notInteger

/-- A natural number. -/
def natural (location : List Text) (v : Value) : Checked Nat :=
  match integer location v with
  | .error issues => .error issues
  | .ok n => if 0 ≤ n then .ok n.toNat else .fail location .belowLeast

/-- The words that stand for a truth value. -/
def truthWords : List (Text × Bool) :=
  [("0", false), ("off", false), ("f", false), ("false", false), ("n", false), ("no", false),
    ("1", true), ("on", true), ("t", true), ("true", true), ("y", true), ("yes", true)]

/-- The truth value that an integer of 64 bits stands for. -/
def truthOfInt (location : List Text) (n : Int) : Checked Bool :=
  if n = 0 then .ok false
  else if n = 1 then .ok true
  else if isWord n ∨ n = -2 ^ (63 : Nat) then .fail location .truthText
  else .fail location .notTruth

/-- The truth value that a word stands for. -/
def truthOfText (location : List Text) (t : Text) : Checked Bool :=
  if !t.isEncodable then .fail location .notUnicode
  else
    match truthWords.lookup t.lower with
    | some b => .ok b
    | none => .fail location .truthText

/-- A truth value: zero, one and the words for it are taken. -/
def truth (location : List Text) : Value → Checked Bool
  | .bool b => .ok b
  | .int n => truthOfInt location n
  | .float x =>
    match integerOfFloat location x with
    | .ok n => truthOfInt location n
    | .error _ => .fail location .notTruth
  | .str t => truthOfText location t
  | _ => .fail location .notTruth

end DocStore.Field
