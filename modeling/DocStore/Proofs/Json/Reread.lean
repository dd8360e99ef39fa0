import DocStore.Json.Decode
import DocStore.Proofs.Json.Quoted
import DocStore.Proofs.Value.Members
import Mathlib.Algebra.Group.Nat.Defs

/-!
What reading makes of a value that was written. Texts and keys come back as
`reread` says, and keys that have become equal fall together. A value that
JSON has is the same again exactly when every text and key in it is.
-/

namespace DocStore

namespace Value

/-- A text stands in a value, by itself or as a key. -/
inductive HasText (t : Text) : Value → Prop
  | str : HasText t (.str t)
  | item {v : Value} {vs : List Value} (hmem : v ∈ vs) (h : HasText t v) : HasText t (.list vs)
  | key {m : Text × Value} {ms : Members} (hmem : m ∈ ms) (h : m.1 = t) : HasText t (.object ms)
  | member {m : Text × Value} {ms : Members} (hmem : m ∈ ms) (h : HasText t m.2) :
      HasText t (.object ms)

theorem forall_hasText_list {P : Text → Prop} {vs : List Value} :
    (∀ t, HasText t (.list vs) → P t) ↔ ∀ v ∈ vs, ∀ t, HasText t v → P t := by
  constructor
  · intro h v hv t ht
    exact h t (.item hv ht)
  · rintro h t (_ | ⟨hmem, ht⟩)
    exact h _ hmem t ht

theorem forall_hasText_object {P : Text → Prop} {ms : Members} :
    (∀ t, HasText t (.object ms) → P t) ↔ ∀ m ∈ ms, P m.1 ∧ ∀ t, HasText t m.2 → P t := by
  constructor
  · intro h m hm
    exact ⟨h _ (.key hm rfl), fun t ht => h t (.member hm ht)⟩
  · rintro h t (_ | _ | ⟨hmem, rfl⟩ | ⟨hmem, ht⟩)
    · exact (h _ hmem).1
    · exact (h _ hmem).2 t ht

/-- The values that JSON has: no float is infinite, no object has a key twice, and no integer
has more digits than are converted. -/
inductive IsJson : Value → Prop
  | null : IsJson .null
  | bool (b : Bool) : IsJson (.bool b)
  | int {n : Int} (h : n.natAbs < 10 ^ Json.digitLimit) : IsJson (.int n)
  | float {x : Binary64} (h : x.isFinite = true) : IsJson (.float x)
  | str (t : Text) : IsJson (.str t)
  | list {vs : List Value} (h : ∀ v ∈ vs, IsJson v) : IsJson (.list vs)
  | object {ms : Members} (h : ∀ m ∈ ms, IsJson m.2) (hkeys : ms.keys.Nodup) : IsJson (.object ms)

end Value

namespace Json

mutual

/-- What reading makes of a value. -/
def rereadValue (asciiOnly : Bool) : Value → Value
  | .str t => .str (reread asciiOnly t)
  | .list vs => .list (rereadItems asciiOnly vs)
  | .object ms => .object (Members.overlay [] (rereadMembers asciiOnly ms))
  | v => v

/-- What reading makes of the items of a list. -/
def rereadItems (asciiOnly : Bool) : List Value → List Value
  | [] => []
  | v :: vs => rereadValue asciiOnly v :: rereadItems asciiOnly vs

/-- What reading makes of the members of an object, one by one. -/
def rereadMembers (asciiOnly : Bool) : List (Text × Value) → List (Text × Value)
  | [] => []
  | (key, v) :: ms => (reread asciiOnly key, rereadValue asciiOnly v) :: rereadMembers asciiOnly ms

end

theorem rereadItems_eq (asciiOnly : Bool) (vs : List Value) :
    rereadItems asciiOnly vs = vs.map (rereadValue asciiOnly) := by
  induction vs with
  | nil => rfl
  | cons v vs ih => rw [rereadItems, ih, List.map_cons]

theorem rereadMembers_eq (asciiOnly : Bool) (ms : Members) :
    rereadMembers asciiOnly ms =
      ms.map fun m => (reread asciiOnly m.1, rereadValue asciiOnly m.2) := by
  induction ms with
  | nil => rfl
  | cons m ms ih => rw [rereadMembers, ih, List.map_cons]

/-- A value is the same again exactly when its texts and keys are. -/
theorem rereadValue_eq_self_iff (asciiOnly : Bool) {v : Value} (hv : v.IsJson) :
    rereadValue asciiOnly v = v ↔ ∀ t, v.HasText t → reread asciiOnly t = t := by
  have hno {v : Value} (hv : rereadValue asciiOnly v = v) (h : ∀ t, ¬v.HasText t) :
      rereadValue asciiOnly v = v ↔ ∀ t, v.HasText t → reread asciiOnly t = t :=
    iff_of_true hv fun t ht => absurd ht (h t)
  induction hv with
  | null => exact hno rfl fun _ h => nomatch h
  | bool b => exact hno rfl fun _ h => nomatch h
  | int h => exact hno rfl fun _ h => nomatch h
  | float h => exact hno rfl fun _ h => nomatch h
  | str t =>
    rw [rereadValue, Value.str.injEq]
    constructor
    · rintro h _ ⟨⟩
      exact h
    · intro h
      exact h t .str
  | list h ih =>
    rw [rereadValue, Value.list.injEq, rereadItems_eq, Value.forall_hasText_list]
    constructor
    · intro heq v hv
      exact (ih v hv).mp (List.map_inj_left.mp (heq.trans (List.map_id _).symm) v hv)
    · intro htexts
      exact (List.map_inj_left.mpr fun v hv => (ih v hv).mpr (htexts v hv)).trans (List.map_id _)
  | object h hkeys ih =>
    rw [rereadValue, Value.object.injEq, rereadMembers_eq, Members.overlay_map_eq_self_iff hkeys,
      Value.forall_hasText_object]
    refine forall₂_congr fun m hm => ?_
    rw [Prod.ext_iff]
    exact and_congr_right fun _ => ih m hm

theorem reread_eq_self_iff (t : Text) : reread true t = t ↔ ¬t.HasPair := t.rejoined_eq_self_iff

end Json

end DocStore
