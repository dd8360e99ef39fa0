import DocStore.Json.Encode

/-!
Which values have a JSON text. Only what stands in a value decides: an object
has a text when the value of each of its members has one, and whether the text
is kept to ASCII makes no difference.
-/

namespace DocStore.Json

theorem isSome_writeMembers_iff {style : Style} {ms : Members} :
    (writeMembers style ms).isSome ↔ ∀ m ∈ ms, (write style m.2).isSome := by
  induction ms with
  | nil => simp [writeMembers]
  | cons m ms ih =>
    obtain ⟨key, v⟩ := m
    rw [List.forall_mem_cons, ← ih, writeMembers]
    cases write style v <;> cases writeMembers style ms <;> simp

theorem isSome_writeItems_iff {style : Style} {vs : List Value} :
    (writeItems style vs).isSome ↔ ∀ v ∈ vs, (write style v).isSome := by
  induction vs with
  | nil => simp [writeItems]
  | cons v vs ih =>
    rw [List.forall_mem_cons, ← ih, writeItems]
    cases write style v <;> cases writeItems style vs <;> simp

theorem isSome_write_list (style : Style) (vs : List Value) :
    (write style (.list vs)).isSome = (writeItems style vs).isSome := by
  rw [write]
  cases writeItems style vs <;> rfl

theorem isSome_write_tuple (style : Style) (vs : List Value) :
    (write style (.tuple vs)).isSome = (writeItems style vs).isSome := by
  rw [write]
  cases writeItems style vs <;> rfl

theorem isSome_write_object (style : Style) (ms : Members) :
    (write style (.object ms)).isSome = (writeMembers style ms).isSome := by
  rw [write]
  cases writeMembers style ms <;> rfl

mutual

/-- A value that has a text outside of ASCII has one in ASCII, and the other way round. -/
theorem isSome_write_compact (a b : Bool) (v : Value) :
    (write (compact a) v).isSome = (write (compact b) v).isSome := by
  match v with
  | .null => rfl
  | .bool true => rfl
  | .bool false => rfl
  | .int n => rfl
  | .float x => rfl
  | .str t => rfl
  | .list vs => rw [isSome_write_list, isSome_write_list, isSome_writeItems_compact a b vs]
  | .tuple vs => rw [isSome_write_tuple, isSome_write_tuple, isSome_writeItems_compact a b vs]
  | .object ms => rw [isSome_write_object, isSome_write_object, isSome_writeMembers_compact a b ms]
  | .bytes octets => rfl
  | .pattern source => rfl
  | .test u => rfl

theorem isSome_writeItems_compact (a b : Bool) (vs : List Value) :
    (writeItems (compact a) vs).isSome = (writeItems (compact b) vs).isSome := by
  match vs with
  | [] => rfl
  | v :: vs =>
    have hv := isSome_write_compact a b v
    have hvs := isSome_writeItems_compact a b vs
    rw [Bool.eq_iff_iff, isSome_writeItems_iff, isSome_writeItems_iff, List.forall_mem_cons,
      List.forall_mem_cons, ← isSome_writeItems_iff, ← isSome_writeItems_iff, hv, hvs]

theorem isSome_writeMembers_compact (a b : Bool) (ms : Members) :
    (writeMembers (compact a) ms).isSome = (writeMembers (compact b) ms).isSome := by
  match ms with
  | [] => rfl
  | (key, v) :: ms =>
    have hv := isSome_write_compact a b v
    have hms := isSome_writeMembers_compact a b ms
    rw [Bool.eq_iff_iff, isSome_writeMembers_iff, isSome_writeMembers_iff, List.forall_mem_cons,
      List.forall_mem_cons, ← isSome_writeMembers_iff, ← isSome_writeMembers_iff, hv, hms]

end

theorem isSome_encode (v : Value) : (encode v).isSome = (write (compact false) v).isSome := by
  unfold encode
  cases h : write (compact false) v with
  | none => rfl
  | some t =>
    dsimp only
    split
    · rfl
    · rw [isSome_write_compact true false v, h]

/-- An object has a JSON text when the value of each member has one. -/
theorem isSome_encode_object {ms : Members} :
    (encode (.object ms)).isSome ↔ ∀ m ∈ ms, (encode m.2).isSome := by
  simp only [isSome_encode, isSome_write_object]
  exact isSome_writeMembers_iff

end DocStore.Json
