import DocStore.Engine.Basic
import DocStore.Fault.Basic
import DocStore.Json.Decode
import DocStore.Text.Case
import DocStore.Text.Integer

/-!
Server versions. A server names its version in words of its own; the first
number in them counts, with up to two more after points. A fork of one engine
has versions of its own and may put a compatible version in front.
-/

namespace DocStore

/-- A version of three numbers. -/
structure Version where
  major : Nat
  minor : Nat
  patch : Nat
  deriving DecidableEq

namespace Version

/-- Whether a version comes before another: the first different number decides. -/
def isBefore (v w : Version) : Bool :=
  v.major < w.major ||
    (v.major = w.major && (v.minor < w.minor || (v.minor = w.minor && v.patch < w.patch)))

/-- The numbers of a version. -/
def toList (v : Version) : List Nat := [v.major, v.minor, v.patch]

/-- The text of a version. -/
def label (v : Version) : Text := Text.join "." (v.toList.map Text.ofNat)

/-- Two families of servers have versions of their own. -/
inductive Flavor where
  | standard
  | mariadb
  deriving DecidableEq

/-- The name of a family. -/
def Flavor.name : Flavor → Text
  | .standard => "default"
  | .mariadb => "mariadb"

/-- A row of digits at the beginning of a text, with the text after it. -/
def digits? (t : Text) : Option (Text × Text) :=
  match t.span CodePoint.isDecimal with
  | ([], _) => none
  | (digits, rest) => some (digits, rest)

/-- The digits after a point at the beginning of a text, which may be missing. -/
def pointDigits (t : Text) : Text × Text :=
  match t with
  | [] => ([], [])
  | c :: rest =>
    if c = '.' then (digits? rest).getD ([], t) else ([], t)

/-- The digits of the parts of the first version in a text. -/
def find? (t : Text) : Option (Text × Text × Text) := do
  let (major, t) ← digits? (t.dropWhile fun c => !c.isDecimal)
  let (minor, t) := pointDigits t
  let (patch, _) := pointDigits t
  return (major, minor, patch)

/-- The words for a number of more digits than are converted; `found` tells how many there are. -/
def tooLong (found : Text) : Text :=
  "Exceeds the limit (" ++ Text.ofNat Json.digitLimit ++ " digits) for integer string conversion"
    ++ found ++ "; use sys.set_int_max_str_digits() to increase the limit"

/-- The number of a part, which is zero when the part is missing. -/
def part (digits : Text) : Except Misuse Nat :=
  if Json.digitLimit < digits.length then
    .error (.badValue (tooLong (": value has " ++ Text.ofNat digits.length ++ " digits")))
  else .ok ((Text.decimalValue? digits).getD 0)

/-- The version of the digits of its parts. -/
def ofParts (major minor patch : Text) : Except Misuse Version := do
  return ⟨← part major, ← part minor, ← part patch⟩

/-- The family of a server, by its words. -/
def flavorOf (raw : Text) : Flavor :=
  if raw.lower.includes "mariadb" then .mariadb else .standard

/-- A text without the compatible version that servers of the one family put in front. -/
def withoutCompatible (flavor : Flavor) (t : Text) : Text :=
  match flavor with
  | .standard => t
  | .mariadb => (t.after? "5.5.5-").getD t

/-- The family and the version of a server, by its words. -/
def parse (raw : Text) : Except Misuse (Flavor × Version) :=
  if raw.isEmpty then .error .emptyVersion
  else
    let flavor := flavorOf raw
    match find? (withoutCompatible flavor raw.strip) with
    | none => .error (.unreadableVersion raw)
    | some (major, minor, patch) => (ofParts major minor patch).map (flavor, ·)

/-- The numeral of an integer, when it has few enough digits. -/
def numeral (n : Int) : Except Misuse Text :=
  if Json.digitLimit < (Text.ofNat n.natAbs).length then .error (.badValue (tooLong []))
  else .ok (Text.ofInt n)

/-- The words for a version that a server tells as one number: two decimal places for each part
since the tenth, and for three parts before. -/
def ofServerNumber (n : Int) : Except Misuse Text := do
  let major := n.fdiv 10000
  if 10 ≤ major then return (← numeral major) ++ "." ++ Text.ofInt (n.fmod 10000)
  else return (← numeral major) ++ "." ++ Text.ofInt ((n.fdiv 100).fmod 100) ++ "."
    ++ Text.ofInt (n.fmod 100)

end Version

namespace Engine

/-- The least version of an engine that the store works with. -/
def leastVersion : Engine → Version.Flavor → Version
  | .mysql, .mariadb => ⟨10, 2, 6⟩
  | .mysql, .standard => ⟨5, 7, 9⟩
  | .pgsql, _ => ⟨9, 5, 0⟩
  | .sqlite, _ => ⟨3, 9, 0⟩

/-- Whether a server is new enough, by its words. -/
def checkVersion (engine : Engine) (raw : Text) : Except SetupFault Unit :=
  match Version.parse raw with
  | .error fault => .error (.versionUnreadable raw fault.message)
  | .ok (flavor, version) =>
    let least := engine.leastVersion flavor
    if version.isBefore least then
      .error (.versionTooOld raw flavor.name version.label least.label)
    else .ok ()

end Engine

end DocStore
