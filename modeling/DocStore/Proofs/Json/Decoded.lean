import DocStore.Document.Stored
import DocStore.Proofs.Json.Writable
import DocStore.Proofs.Outcome
import DocStore.Proofs.Value.Members

/-!
What is read. A JSON text comes to null, truth values, numbers, texts, lists and
objects only, and no object that is read has a key twice; so whatever these keep
holds of every value that is read. Every such value has a JSON text again, and
so has every document that was stored as one.
-/

namespace DocStore.Json

/-- What holds of every value that is read: it holds of the words, of numbers and of texts, and of a
list or an object where it holds of all that is in it. -/
structure Closed (P : Value → Prop) : Prop where
  word : ∀ p ∈ words, P p.2
  int : ∀ n, P (.int n)
  float : ∀ x, P (.float x)
  str : ∀ t, P (.str t)
  list : ∀ {vs}, (∀ v ∈ vs, P v) → P (.list vs)
  object : ∀ {ms : Members}, ms.keys.Nodup → (∀ m ∈ ms, P m.2) → P (.object ms)

variable {P : Value → Prop}

theorem Closed.of_number (hP : Closed P) {negative : Bool} {t rest : Text} {v : Value}
    (h : number negative t = .ok (v, rest)) : P v := by
  unfold number at h
  split at h
  · cases h
  · dsimp only at h
    split at h
    · split at h
      · cases h
      · cases h
        exact hP.int _
    · cases h
      exact hP.float _

theorem Closed.of_atom (hP : Closed P) {t rest : Text} {v : Value} (h : atom t = .ok (v, rest)) :
    P v := by
  unfold atom at h
  split at h
  next found hfound =>
    cases h
    obtain ⟨p, hp, hmap⟩ := List.exists_of_findSome?_eq_some hfound
    obtain ⟨rest', -, heq⟩ := Option.map_eq_some_iff.mp hmap
    cases heq
    exact hP.word p hp
  next =>
    split at h
    · cases h
    · split at h
      · exact hP.of_number h
      · exact hP.of_number h

mutual

theorem Closed.of_value (hP : Closed P) (fuel : Nat) {t rest : Text} {v : Value}
    (h : value fuel t = .ok (v, rest)) : P v := by
  match fuel, t with
  | 0, _ => cases h
  | fuel + 1, [] => cases h
  | fuel + 1, c :: t =>
    unfold value at h
    split at h
    · obtain ⟨⟨text, t'⟩, -, ⟨⟩⟩ := exists_of_bind_ok h
      exact hP.str text
    · split at h
      · split at h
        · cases h
        · split at h
          · cases h
            exact hP.list (List.forall_mem_nil _)
          · obtain ⟨⟨vs, t'⟩, hvs, ⟨⟩⟩ := exists_of_bind_ok h
            exact hP.list (hP.of_items fuel hvs)
      · split at h
        · split at h
          · cases h
          · split at h
            · cases h
              exact hP.object .nil (List.forall_mem_nil _)
            · obtain ⟨⟨ms, t'⟩, hms, ⟨⟩⟩ := exists_of_bind_ok h
              have hnone : (Members.keys []).Nodup := .nil
              obtain ⟨hkeys, hmembers⟩ := hP.of_members fuel hnone (List.forall_mem_nil _) hms
              exact hP.object hkeys hmembers
        · exact hP.of_atom h

theorem Closed.of_items (hP : Closed P) (fuel : Nat) {t rest : Text} {vs : List Value}
    (h : items fuel t = .ok (vs, rest)) : ∀ v ∈ vs, P v := by
  match fuel with
  | 0 => cases h
  | fuel + 1 =>
    unfold items at h
    obtain ⟨⟨v, t'⟩, hv, h⟩ := exists_of_bind_ok h
    have hv := hP.of_value fuel hv
    dsimp only at h
    split at h
    · cases h
    · split at h
      · cases h
        exact List.forall_mem_singleton.mpr hv
      · split at h
        · obtain ⟨⟨vs', t''⟩, hvs, ⟨⟩⟩ := exists_of_bind_ok h
          exact List.forall_mem_cons.mpr ⟨hv, hP.of_items fuel hvs⟩
        · cases h

theorem Closed.of_members (hP : Closed P) (fuel : Nat) {read ms : Members} {t rest : Text}
    (hkeys : read.keys.Nodup) (hread : ∀ m ∈ read, P m.2)
    (h : members fuel read t = .ok (ms, rest)) : ms.keys.Nodup ∧ ∀ m ∈ ms, P m.2 := by
  match fuel with
  | 0 => cases h
  | fuel + 1 =>
    unfold members at h
    obtain ⟨t₁, -, h⟩ := exists_of_bind_ok h
    obtain ⟨⟨key, t₂⟩, -, h⟩ := exists_of_bind_ok h
    obtain ⟨t₃, -, h⟩ := exists_of_bind_ok h
    obtain ⟨⟨v, t₄⟩, hv, h⟩ := exists_of_bind_ok h
    have hkeys' : (read.insert key v).keys.Nodup := Members.nodup_keys_insert hkeys key v
    have hread' : ∀ m ∈ read.insert key v, P m.2 :=
      read.forall_mem_insert (hP.of_value fuel hv) hread
    dsimp only at h
    split at h
    · cases h
    · split at h
      · cases h
        exact ⟨hkeys', hread'⟩
      · split at h
        · exact hP.of_members fuel hkeys' hread' h
        · cases h

end

theorem Closed.of_decode (hP : Closed P) {t : Text} {v : Value} (h : decode t = .ok v) : P v := by
  obtain ⟨⟨w, rest⟩, hw, h⟩ := exists_of_bind_ok h
  dsimp only at h
  split at h
  · cases h
    exact hP.of_value _ hw
  · cases h

theorem isSome_encode_list {vs : List Value} :
    (encode (.list vs)).isSome ↔ ∀ v ∈ vs, (encode v).isSome := by
  simp only [isSome_encode, isSome_write_list]
  exact isSome_writeItems_iff

theorem closed_isSome_encode : Closed fun v => (encode v).isSome where
  word := by
    simp only [isSome_encode]
    decide
  int n := by
    rw [isSome_encode]
    rfl
  float x := by
    rw [isSome_encode]
    rfl
  str t := by
    rw [isSome_encode]
    rfl
  list h := isSome_encode_list.mpr h
  object _ h := isSome_encode_object.mpr h

/-- What a JSON text writes has a JSON text. -/
theorem isSome_encode_of_decode {t : Text} {v : Value} (h : decode t = .ok v) :
    (encode v).isSome := closed_isSome_encode.of_decode h

end DocStore.Json

namespace DocStore

/-- A cell as databases hand it out: a text, octets, or a value that JSON has. -/
def Value.IsCell : Value → Prop
  | .str _ | .bytes _ => True
  | v => (Json.encode v).isSome

theorem isSome_encode_of_readJson {t : Text} {v : Value} (h : readJson t = .ok v) :
    (Json.encode v).isSome := by
  unfold readJson at h
  split at h
  next hdecode =>
    cases h
    exact Json.isSome_encode_of_decode hdecode
  · cases h
  · cases h

/-- A document that was stored has a JSON text. -/
theorem isSome_encode_of_storedDocument {cell v : Value} (hcell : cell.IsCell)
    (h : storedDocument cell = .ok v) : (Json.encode v).isSome := by
  cases cell with
  | str t => exact isSome_encode_of_readJson h
  | bytes octets =>
    unfold storedDocument at h
    dsimp only at h
    split at h
    · exact isSome_encode_of_readJson h
    · cases h
  | _ =>
    cases h
    exact hcell

end DocStore
