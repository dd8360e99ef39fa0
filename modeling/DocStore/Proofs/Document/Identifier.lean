import DocStore.Proofs.Document.ObjectId
import DocStore.Proofs.Text.Hex
import Mathlib.Data.Int.Bitwise

/-!
What is read from an identifier. The time and the process are masked to fields
that hold them, however great or negative they are, and everything is written
octet by octet. So the parts of an identifier are read back from it, two
identifiers are equal just where their parts are, and identifiers of later
seconds sort after those of earlier ones.
-/

namespace DocStore

-- Powers are those of the core library, whatever else is imported.
attribute [local instance (high + 1)] instPowNat

/-! ### Masks -/

theorem ldiff_mask (m bits : Nat) : (2 ^ bits - 1).ldiff m = 2 ^ bits - (m % 2 ^ bits + 1) := by
  refine Nat.eq_of_testBit_eq fun i => ?_
  rw [Nat.testBit_ldiff, Nat.testBit_two_pow_sub_one,
    Nat.testBit_two_pow_sub_succ (Nat.mod_lt m (Nat.two_pow_pos bits)), Nat.testBit_mod_two_pow]
  by_cases hi : i < bits <;> simp [hi]

/-- The low bits of a number, a negative one included, are its remainder. -/
theorem land_mask (n : Int) (bits : Nat) : n.land (2 ^ bits - 1 : Nat) = n % (2 ^ bits : Nat) := by
  cases n with
  | ofNat m =>
    show ((m &&& (2 ^ bits - 1) : Nat) : Int) = _
    rw [Nat.and_two_pow_sub_one_eq_mod]
    rfl
  | negSucc m =>
    have hlt : m % 2 ^ bits < 2 ^ bits := Nat.mod_lt m (Nat.two_pow_pos bits)
    show (((2 ^ bits - 1).ldiff m : Nat) : Int) = _
    rw [ldiff_mask, Int.negSucc_emod m (by omega), ← Int.natCast_mod]
    omega

/-! ### Fields of octets -/

/-- The low octets of a number, the most significant first. -/
def bigEndian : Nat → Nat → List UInt8
  | 0, _ => []
  | width + 1, n => bigEndian width (n / 256) ++ [n.toUInt8]

/-- A number packed into a field of octets; one that the field does not hold is refused. -/
def packed? (width : Nat) (n : Int) : Option (List UInt8) :=
  if 0 ≤ n ∧ n < 256 ^ width then some (bigEndian width n.toNat) else none

/-- The number that octets stand for, the most significant first. -/
def octetsValue (octets : List UInt8) : Nat :=
  octets.foldl (fun n octet => n * 256 + octet.toNat) 0

theorem octetsValue_append_octet (octets : List UInt8) (octet : UInt8) :
    octetsValue (octets ++ [octet]) = octetsValue octets * 256 + octet.toNat := by
  rw [octetsValue, List.foldl_append]
  rfl

theorem octetsValue_bigEndian (width n : Nat) :
    octetsValue (bigEndian width n) = n % 256 ^ width := by
  induction width generalizing n with
  | zero =>
    rw [Nat.pow_zero, Nat.mod_one]
    rfl
  | succ width ih =>
    have hlast : n.toUInt8.toNat = n % 256 := UInt8.toNat_ofNat'
    rw [bigEndian, octetsValue_append_octet, ih, hlast, Nat.pow_succ, Nat.mul_comm (256 ^ width) 256,
      Nat.mod_mul]
    omega

/-- A number that is masked to the width of a field is held by it. -/
theorem packed?_land (n : Int) (width : Nat) :
    packed? width (n.land (2 ^ (8 * width) - 1 : Nat)) =
      some (bigEndian width (n % (2 ^ (8 * width) : Nat)).toNat) := by
  have hpow : (2 ^ (8 * width) : Nat) = 256 ^ width := Nat.pow_mul 2 8 width
  have hpos : (0 : Int) < (256 ^ width : Nat) := Int.natCast_pos.mpr (Nat.pow_pos (by omega))
  rw [land_mask, hpow, packed?, if_pos]
  exact ⟨Int.emod_nonneg n (Int.ne_of_gt hpos), Int.natCast_pow 256 width ▸ Int.emod_lt_of_pos n hpos⟩

example : packed? 2 0x10000 = none ∧ packed? 2 (-1) = none ∧ packed? 2 0x102 = some [1, 2] := by
  decide

/-! ### Octets in hexadecimal digits -/

/-- Octets in hexadecimal digits, two for each. -/
def hexText (octets : List UInt8) : Text := octets.flatMap fun octet => Text.hex 2 octet.toNat

theorem hexText_append (os ps : List UInt8) : hexText (os ++ ps) = hexText os ++ hexText ps :=
  List.flatMap_append

/-- The octets of a number have the digits of the number. -/
theorem hexText_bigEndian (width n : Nat) :
    hexText (bigEndian width n) = Text.hex (2 * width) n := by
  induction width generalizing n with
  | zero => rfl
  | succ width ih =>
    have hoctet : hexText [n.toUInt8] = Text.hex 2 (n % 256) := rfl
    have hdigits : Text.hex 2 (n % 256) =
        [Text.hexDigit (n / 16 % 16), Text.hexDigit (n % 16)] := by
      show [Text.hexDigit (n % 256 / 16 % 16), Text.hexDigit (n % 256 % 16)] = _
      rw [show n % 256 / 16 % 16 = n / 16 % 16 by omega, show n % 256 % 16 = n % 16 by omega]
    have hquotient : n / 16 / 16 = n / 256 := Nat.div_div_eq_div_mul n 16 16
    rw [bigEndian, hexText_append, ih, hoctet, hdigits]
    show _ = Text.hex (2 * width) (n / 16 / 16) ++ [_] ++ [_]
    rw [hquotient, List.append_assoc]
    rfl

/-- The octets that pairs of hexadecimal digits write. -/
def hexOctets? : Text → Option (List UInt8)
  | [] => some []
  | [_] => none
  | a :: b :: t => do
    let high ← Text.hexValue? a
    let low ← Text.hexValue? b
    return (high * 16 + low).toUInt8 :: (← hexOctets? t)

theorem hexOctets?_hexText (octets : List UInt8) : hexOctets? (hexText octets) = some octets := by
  induction octets with
  | nil => rfl
  | cons octet octets ih =>
    have hlt : octet.toNat < 256 := octet.toNat_lt
    have hhigh := Text.hexValue?_hexDigit (n := octet.toNat / 16 % 16) (Nat.mod_lt _ (by omega))
    have hlow := Text.hexValue?_hexDigit (n := octet.toNat % 16) (Nat.mod_lt _ (by omega))
    have hsum : octet.toNat / 16 % 16 * 16 + octet.toNat % 16 = octet.toNat := by omega
    show hexOctets? (Text.hexDigit (octet.toNat / 16 % 16) :: Text.hexDigit (octet.toNat % 16) ::
      hexText octets) = _
    rw [hexOctets?, hhigh, hlow, ih]
    show some ((octet.toNat / 16 % 16 * 16 + octet.toNat % 16).toUInt8 :: octets) = _
    rw [hsum]
    exact congrArg (some <| · :: octets) UInt8.ofNat_toNat

/-! ### The parts of an identifier -/

/-- What an identifier tells. -/
structure IdParts where
  /-- The time in seconds, as far as four octets count. -/
  time : Nat
  host : Octets3
  /-- The process, as far as two octets count. -/
  process : Nat
  unique : Octets3
  deriving DecidableEq

/-- The parts that an identifier is made with. -/
def IdSource.parts (source : IdSource) (unique : Octets3) : IdParts where
  time := (source.time % 2 ^ (32 : Nat)).toNat
  host := source.host
  process := (source.process % 2 ^ (16 : Nat)).toNat
  unique := unique

/-- The parts that are read from the text of an identifier. -/
def IdParts.ofText? (t : Text) : Option IdParts := do
  match ← hexOctets? t with
  | [s₁, s₂, s₃, s₄, h₁, h₂, h₃, p₁, p₂, u₁, u₂, u₃] =>
    some ⟨octetsValue [s₁, s₂, s₃, s₄], ⟨h₁, h₂, h₃⟩, octetsValue [p₁, p₂], ⟨u₁, u₂, u₃⟩⟩
  | _ => none

/-- Three octets as a row. -/
def Octets3.toList (o : Octets3) : List UInt8 := [o.first, o.second, o.third]

theorem Octets3.hex_eq (o : Octets3) : o.hex = hexText o.toList := by
  simp [hex, hexText, toList]

/-- The octets of an identifier, in order. -/
theorem objectId_eq_hexText (source : IdSource) (unique : Octets3) :
    objectId source unique =
      hexText (bigEndian 4 (source.time % 2 ^ (32 : Nat)).toNat ++ source.host.toList
        ++ bigEndian 2 (source.process % 2 ^ (16 : Nat)).toNat ++ unique.toList) := by
  simp only [hexText_append, hexText_bigEndian, ← Octets3.hex_eq]
  rfl

theorem IdParts.ofText?_hexText (time process : Nat) (host unique : Octets3) :
    ofText? (hexText (bigEndian 4 time ++ host.toList ++ bigEndian 2 process ++ unique.toList)) =
      some ⟨time % 256 ^ 4, host, process % 256 ^ 2, unique⟩ := by
  rw [ofText?, hexOctets?_hexText]
  show some (⟨octetsValue (bigEndian 4 time), host, octetsValue (bigEndian 2 process), unique⟩ :
    IdParts) = _
  rw [octetsValue_bigEndian, octetsValue_bigEndian]

/-- The parts of an identifier are read back from it. -/
theorem IdParts.ofText?_objectId (source : IdSource) (unique : Octets3) :
    ofText? (objectId source unique) = some (source.parts unique) := by
  have htime : (source.time % 2 ^ (32 : Nat)).toNat % 256 ^ 4 = (source.time % 2 ^ (32 : Nat)).toNat :=
    Nat.mod_eq_of_lt (by omega)
  have hprocess : (source.process % 2 ^ (16 : Nat)).toNat % 256 ^ 2 =
      (source.process % 2 ^ (16 : Nat)).toNat := Nat.mod_eq_of_lt (by omega)
  rw [objectId_eq_hexText, ofText?_hexText, htime, hprocess]
  rfl

theorem objectId_eq_iff {source other : IdSource} {unique unique' : Octets3} :
    objectId source unique = objectId other unique' ↔ source.parts unique = other.parts unique' := by
  constructor
  · intro h
    have hparts := IdParts.ofText?_objectId source unique
    rw [h, IdParts.ofText?_objectId] at hparts
    exact (Option.some.inj hparts).symm
  · intro h
    obtain ⟨htime, hhost, hprocess, rfl⟩ := IdParts.mk.inj h
    rw [objectId, objectId, htime, hhost, hprocess]

/-- An identifier of an earlier second comes first, whatever its other parts. -/
theorem isLess_objectId {source other : IdSource} (h : 0 ≤ source.time)
    (hlt : source.time < other.time) (hother : other.time < 2 ^ (32 : Nat)) (unique unique' : Octets3) :
    (objectId source unique).isLess (objectId other unique') = true := by
  have htime : (source.time % 2 ^ (32 : Nat)).toNat < (other.time % 2 ^ (32 : Nat)).toNat := by omega
  have hfield : (other.time % 2 ^ (32 : Nat)).toNat < 16 ^ 8 := by omega
  simp only [objectId, List.append_assoc]
  exact Text.isLess_hex htime hfield _ _

theorem mem_hexDigits_of_mem_objectId {source : IdSource} {unique : Octets3} {c : CodePoint}
    (h : c ∈ objectId source unique) : c ∈ Text.hexDigits := by
  rw [objectId_eq_hexText] at h
  obtain ⟨octet, -, hc⟩ := List.mem_flatMap.mp h
  exact Text.mem_hexDigits_of_mem_hex hc

/-- An identifier is twenty-four lower-case hexadecimal digits: those of the time and the process,
which are masked so that their fields hold them, and of the octets of the host and of chance, in
order. Its parts are read back from it, so that it is equal to another just where their parts are;
and it comes before every identifier of a later second that four octets count. -/
theorem objectId_encodes (source : IdSource) (unique : Octets3) :
    (objectId source unique).length = 24 ∧
    (∀ c ∈ objectId source unique, c ∈ Text.hexDigits) ∧
    (∃ time process, packed? 4 (source.time.land 0xffffffff) = some time ∧
      packed? 2 (source.process.land 0xffff) = some process ∧
      objectId source unique =
        hexText (time ++ source.host.toList ++ process ++ unique.toList)) ∧
    IdParts.ofText? (objectId source unique) = some (source.parts unique) ∧
    ∀ (other : IdSource) (unique' : Octets3),
      (objectId source unique = objectId other unique' ↔
        source.parts unique = other.parts unique') ∧
      (0 ≤ source.time → source.time < other.time → other.time < 2 ^ (32 : Nat) →
        (objectId source unique).isLess (objectId other unique') = true) := by
  refine ⟨length_objectId source unique, fun _ => mem_hexDigits_of_mem_objectId, ?_,
    IdParts.ofText?_objectId source unique, fun other unique' => ⟨objectId_eq_iff, ?_⟩⟩
  · exact ⟨_, _, packed?_land source.time 4, packed?_land source.process 2,
      objectId_eq_hexText source unique⟩
  · intro h hlt hother
    exact isLess_objectId h hlt hother unique unique'

/-- A second whose last octet is full, with the greatest host and chance and a negative process: the
process is read back as it was masked, and an identifier of the next second comes after this one
though all its other parts are least. -/
theorem objectId_encodes_full :
    let source : IdSource := ⟨255, ⟨0xff, 0xff, 0xff⟩, -1⟩
    let next : IdSource := ⟨256, ⟨0, 0, 0⟩, 0⟩
    let unique : Octets3 := ⟨0xff, 0xff, 0xff⟩
    0 ≤ source.time ∧ source.time < next.time ∧ next.time < 2 ^ (32 : Nat) ∧
      IdParts.ofText? (objectId source unique) = some ⟨255, source.host, 0xffff, unique⟩ ∧
      (objectId source unique).isLess (objectId next ⟨0, 0, 0⟩) = true := by
  intro source next unique
  obtain ⟨-, -, -, hread, hall⟩ := objectId_encodes source unique
  exact ⟨by decide, by decide, by decide, hread,
    (hall next ⟨0, 0, 0⟩).2 (by decide) (by decide) (by decide)⟩

end DocStore
