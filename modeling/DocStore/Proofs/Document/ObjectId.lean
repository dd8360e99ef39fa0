import DocStore.Document.ObjectId
import DocStore.Proofs.Json.Writable
import DocStore.Proofs.Value.Members

/-!
Documents with their identifiers. A document that got one has one, and keeps it
when it is asked for again; whether it can be stored does not depend on it.
-/

namespace DocStore

/-- An identifier has twenty-four digits. -/
theorem length_objectId (source : IdSource) (unique : Octets3) :
    (objectId source unique).length = 24 := by
  simp [objectId, Octets3.hex]

theorem objectId_ne_nil (source : IdSource) (unique : Octets3) : objectId source unique ≠ [] := by
  intro h
  have hlength := length_objectId source unique
  rw [h] at hlength
  cases hlength

/-- A document has its identifier when there is one that is neither null nor empty. -/
theorem hasId_iff {ms : Members} :
    lacksId ms = false ↔ ∃ id, ms.get? idField = some id ∧ id ≠ .null ∧ id ≠ .str [] := by
  unfold lacksId
  cases h : ms.get? idField with
  | none => simp
  | some id =>
    cases id with
    | str t => cases t <;> simp
    | _ => simp

theorem lacksId_withId {ms : Members} {id : Text} (hid : id ≠ []) :
    lacksId (withId ms id) = false := by
  unfold withId
  cases hlacks : lacksId ms with
  | false => exact hlacks
  | true =>
    obtain ⟨c, t, rfl⟩ := List.exists_cons_of_ne_nil hid
    simp [lacksId, Members.get?_insert]

theorem withId_of_hasId {ms : Members} (h : lacksId ms = false) (id : Text) : withId ms id = ms := by
  rw [withId, h]
  rfl

/-- A document without an identifier has nothing in its place, or what is written as JSON. -/
theorem isSome_encode_of_lacksId {ms : Members} (h : lacksId ms = true) {v : Value}
    (hv : ms.get? idField = some v) : (Json.encode v).isSome := by
  rw [Json.isSome_encode]
  refine Decidable.byContradiction fun hnone => ?_
  have hhas : lacksId ms = false := by
    refine hasId_iff.mpr ⟨v, hv, ?_, ?_⟩
    · rintro rfl
      exact hnone rfl
    · rintro rfl
      exact hnone rfl
  rw [h] at hhas
  cases hhas

/-- A document with its identifier has a JSON text where the document has one. -/
theorem isSome_encode_withId (ms : Members) (id : Text) :
    (Json.encode (.object (withId ms id))).isSome = (Json.encode (.object ms)).isSome := by
  unfold withId
  cases hlacks : lacksId ms with
  | false => rfl
  | true =>
    have hid : (Json.encode (.str id)).isSome := by rw [Json.isSome_encode]; rfl
    rw [if_pos rfl, Bool.eq_iff_iff, Json.isSome_encode_object, Json.isSome_encode_object]
    exact Members.forall_mem_insert_iff hid fun w hw => isSome_encode_of_lacksId hlacks hw

end DocStore
