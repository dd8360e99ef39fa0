import DocStore.Settings.Scalar

/-!
Settings from named values. A name starts with a prefix and goes on with the
path of a setting, its parts separated by doubled underscores and in either case.
-/

namespace DocStore.Settings

/-- Named values in order. -/
abbrev Environment := List (Text × Text)

/-- The parts of a text between doubled underscores. -/
def nameParts (t : Text) : List Text := (t.splitDouble '_').filter fun part => !part.isEmpty

/-- The path of the setting that a name is for, when it has the prefix. -/
def settingPath? (start name : Text) : Option (List Text) :=
  (name.after? start).map fun rest => (nameParts rest).map Text.lower

/-- A value put where a path leads to, through objects made on the way; what else stands in the
way is replaced. -/
def nest (v : Value) : List Text → Members → Members
  | [], ms => ms
  | [key], ms => ms.insert key v
  | key :: path, ms =>
    match ms.get? key with
    | some (.object inner) => ms.insert key (.object (nest v path inner))
    | _ => ms.insert key (.object (nest v path []))

/-- The value of a setting: its text where the path is among those kept as they are. -/
def settingValue (asIs : List Text) (path : List Text) (raw : Text) :
    Except Json.ReadFault Value :=
  if Text.join "." path ∈ asIs then .ok (.str raw) else scalar raw

/-- The settings that named values make, with one more of them. -/
def addNamed (start : Text) (asIs : List Text) (ms : Members) (named : Text × Text) :
    Except Json.ReadFault Members :=
  match settingPath? start named.1 with
  | none => .ok ms
  | some [] => .ok ms
  | some path => do return nest (← settingValue asIs path named.2) path ms

/-- The settings that named values make; the paths kept as they are may be in either case. -/
def ofNamed (env : Environment) (start : Text) (asIs : List Text) :
    Except Json.ReadFault Members :=
  env.foldlM (addNamed start (asIs.map Text.lower)) []

end DocStore.Settings
