import DocStore.Digest.Md5
import DocStore.Fault.Misuse
import DocStore.Text.Utf8

/-!
Identifiers of documents. An identifier is made of the time, the host, the
process and three further octets, in this order, and written in twenty-four
hexadecimal digits, so that identifiers of later seconds sort after earlier ones.
-/

namespace DocStore

-- Powers are those of the core library, whatever else is imported.
attribute [local instance (high + 1)] instPowNat

/-- The field that identifies a document. -/
def idField : Text := "_id"

/-- Three octets. -/
structure Octets3 where
  first : UInt8
  second : UInt8
  third : UInt8
  deriving DecidableEq

/-- Three octets of a number, the most significant first. -/
def Octets3.ofNat (n : Nat) : Octets3 :=
  ⟨(n / 0x10000).toUInt8, (n / 0x100).toUInt8, n.toUInt8⟩

/-- The hexadecimal digits of three octets. -/
def Octets3.hex (o : Octets3) : Text :=
  Text.hex 2 o.first.toNat ++ Text.hex 2 o.second.toNat ++ Text.hex 2 o.third.toNat

/-- The octets that stand for a host: the first of the digest of its name. -/
def Octets3.ofHost (name : Text) : Except Misuse Octets3 :=
  match name.toUtf8? with
  | none => .error .notEncodable
  | some octets =>
    let digest := Md5.digest octets
    .ok ⟨digest.getD 0 0, digest.getD 1 0, digest.getD 2 0⟩

/-- What identifiers are made of, beside what tells those of one process and second apart. -/
structure IdSource where
  /-- The time in seconds. -/
  time : Int
  host : Octets3
  process : Int
  deriving DecidableEq

/-- The identifier of a time, host, process and three further octets. -/
def objectId (source : IdSource) (unique : Octets3) : Text :=
  Text.hex 8 (source.time % 2 ^ (32 : Nat)).toNat ++ source.host.hex
    ++ Text.hex 4 (source.process % 2 ^ (16 : Nat)).toNat ++ unique.hex

/-- Whether a document's identifier is still to be made: it is absent, null or empty. -/
def lacksId (ms : Members) : Bool :=
  match ms.get? idField with
  | none => true
  | some .null => true
  | some (.str []) => true
  | some _ => false

/-- A document with the identifier given to it if it has none. -/
def withId (ms : Members) (id : Text) : Members :=
  if lacksId ms then ms.insert idField (.str id) else ms

end DocStore
