import DocStore.Value.Basic

/-!
Members set one after the other. A key that is new comes to the end, so members
with different keys stay as they are; and whenever no two members fall together,
nothing has changed.
-/

namespace DocStore.Members

theorem keys_append (ms ns : Members) : (ms ++ ns).keys = ms.keys ++ ns.keys := List.map_append

theorem insert_of_not_mem {ms : Members} {key : Text} (h : key ∉ ms.keys) (v : Value) :
    ms.insert key v = ms ++ [(key, v)] := by
  induction ms with
  | nil => rfl
  | cons m ms ih =>
    obtain ⟨k, w⟩ := m
    obtain ⟨hne, h⟩ := not_or.mp ((not_congr List.mem_cons).mp h)
    rw [insert, if_neg (Ne.symm hne), ih h]
    rfl

theorem length_insert_of_mem {ms : Members} {key : Text} (h : key ∈ ms.keys) (v : Value) :
    (ms.insert key v).length = ms.length := by
  induction ms with
  | nil => cases h
  | cons m ms ih =>
    obtain ⟨k, w⟩ := m
    rw [insert]
    by_cases hkey : k = key
    · rw [if_pos hkey]
      rfl
    · rw [if_neg hkey, List.length_cons, List.length_cons, ih]
      exact (List.mem_cons.mp h).resolve_left (Ne.symm hkey)

theorem length_insert_le (ms : Members) (key : Text) (v : Value) :
    (ms.insert key v).length ≤ ms.length + 1 := by
  by_cases h : key ∈ ms.keys
  · rw [length_insert_of_mem h]
    omega
  · rw [insert_of_not_mem h, List.length_append]
    exact Nat.le_refl _

/-- What holds of every value and of one more holds of every value when that one is set. -/
theorem forall_mem_insert {P : Value → Prop} (ms : Members) {key : Text} {v : Value} (hv : P v)
    (hms : ∀ m ∈ ms, P m.2) : ∀ m ∈ ms.insert key v, P m.2 := by
  induction ms with
  | nil => exact List.forall_mem_singleton.mpr hv
  | cons m ms ih =>
    obtain ⟨hm, hms⟩ := List.forall_mem_cons.mp hms
    rw [insert]
    split
    · exact List.forall_mem_cons.mpr ⟨hv, hms⟩
    · exact List.forall_mem_cons.mpr ⟨hm, ih hms⟩

/-- What is asked of every value is asked of no other one, where a value is set that has it in the
place of one that had it. -/
theorem forall_mem_insert_iff {P : Value → Prop} {ms : Members} {key : Text} {v : Value} (hv : P v)
    (h : ∀ w, ms.get? key = some w → P w) :
    (∀ m ∈ ms.insert key v, P m.2) ↔ ∀ m ∈ ms, P m.2 := by
  induction ms with
  | nil => simpa [insert] using hv
  | cons m ms ih =>
    obtain ⟨k, w⟩ := m
    rw [insert]
    by_cases hkey : k = key
    · subst hkey
      have hw : P w := h w (by rw [get?_cons, if_pos rfl])
      rw [if_pos rfl, List.forall_mem_cons, List.forall_mem_cons]
      exact ⟨fun hms => ⟨hw, hms.2⟩, fun hms => ⟨hv, hms.2⟩⟩
    · rw [if_neg hkey, List.forall_mem_cons, List.forall_mem_cons, ih]
      intro w' hw'
      exact h w' (by rw [get?_cons, if_neg (Ne.symm hkey), hw'])

theorem overlay_cons (ms ns : Members) (n : Text × Value) :
    ms.overlay (n :: ns) = (ms.insert n.1 n.2).overlay ns := rfl

theorem overlay_eq_append {ms ns : Members} (h : (ms ++ ns).keys.Nodup) :
    ms.overlay ns = ms ++ ns := by
  induction ns generalizing ms with
  | nil => exact (List.append_nil ms).symm
  | cons n ns ih =>
    have hkey : n.1 ∉ ms.keys := by
      rw [keys_append, List.nodup_append] at h
      exact fun hmem => h.2.2 _ hmem _ (List.mem_cons_self ..) rfl
    rw [overlay_cons, insert_of_not_mem hkey, ih]
    · simp
    · simpa using h

theorem length_overlay_le (ms ns : Members) : (ms.overlay ns).length ≤ ms.length + ns.length := by
  induction ns generalizing ms with
  | nil => exact Nat.le_refl _
  | cons n ns ih =>
    have hinsert := length_insert_le ms n.1 n.2
    have hrest := ih (ms.insert n.1 n.2)
    rw [overlay_cons, List.length_cons]
    omega

/-- Members that are as many as those set have all come to the end. -/
theorem overlay_eq_append_of_length {ms ns : Members}
    (h : (ms.overlay ns).length = ms.length + ns.length) : ms.overlay ns = ms ++ ns := by
  induction ns generalizing ms with
  | nil => exact (List.append_nil ms).symm
  | cons n ns ih =>
    rw [overlay_cons, List.length_cons] at h
    have hrest := length_overlay_le (ms.insert n.1 n.2) ns
    by_cases hkey : n.1 ∈ ms.keys
    · rw [length_insert_of_mem hkey] at hrest
      omega
    · have hinsert := insert_of_not_mem hkey n.2
      rw [hinsert, List.length_append, List.length_singleton] at hrest
      rw [overlay_cons, ih]
      · rw [hinsert, List.append_assoc]
        rfl
      · rw [hinsert] at h ⊢
        rw [h, List.length_append, List.length_singleton]
        omega

/-- Members with different keys are the same again when each of them is. -/
theorem overlay_map_eq_self_iff {ms : Members} (h : ms.keys.Nodup) (f : Text × Value → Text × Value) :
    overlay [] (ms.map f) = ms ↔ ∀ m ∈ ms, f m = m := by
  constructor
  · intro heq
    have hmap : overlay [] (ms.map f) = [] ++ ms.map f := by
      apply overlay_eq_append_of_length
      rw [heq]
      simp
    rw [hmap] at heq
    exact List.map_inj_left.mp (heq.trans (List.map_id ms).symm)
  · intro hf
    have hmap : ms.map f = ms := (List.map_inj_left.mpr hf).trans (List.map_id ms)
    rw [hmap]
    exact overlay_eq_append h

theorem mem_of_get? {ms : Members} {key : Text} {v : Value} (h : ms.get? key = some v) :
    (key, v) ∈ ms := by
  induction ms with
  | nil => cases h
  | cons m ms ih =>
    rw [get?_cons] at h
    split at h
    next hkey =>
      subst hkey
      cases h
      exact List.mem_cons_self
    · exact List.mem_cons_of_mem _ (ih h)

theorem mem_keys_of_get? {ms : Members} {key : Text} {v : Value} (h : ms.get? key = some v) :
    key ∈ ms.keys := List.mem_map_of_mem (f := Prod.fst) (mem_of_get? h)

theorem insert_of_get? {ms : Members} {key : Text} {v : Value} (h : ms.get? key = some v) :
    ms.insert key v = ms := by
  induction ms with
  | nil => cases h
  | cons m ms ih =>
    obtain ⟨k, w⟩ := m
    rw [get?_cons] at h
    rw [insert]
    by_cases hkey : k = key
    · simp_all
    · rw [if_neg (Ne.symm hkey)] at h
      rw [if_neg hkey, ih h]

theorem insert_insert_self (ms : Members) (key : Text) (v w : Value) :
    (ms.insert key v).insert key w = ms.insert key w := by
  induction ms with
  | nil => exact if_pos rfl
  | cons m ms ih =>
    obtain ⟨k, u⟩ := m
    rw [insert, insert]
    by_cases hkey : k = key
    · rw [if_pos hkey, if_pos hkey, insert, if_pos hkey]
    · rw [if_neg hkey, if_neg hkey, insert, if_neg hkey, ih]

/-- A member that is there may be set before or after another one. -/
theorem insert_comm_of_mem {ms : Members} {key other : Text} (h : key ∈ ms.keys) (hne : key ≠ other)
    (v w : Value) : (ms.insert other v).insert key w = (ms.insert key w).insert other v := by
  induction ms with
  | nil => cases h
  | cons m ms ih =>
    obtain ⟨k, u⟩ := m
    rw [insert, insert]
    by_cases hkey : k = key
    · subst hkey
      rw [if_neg hne, if_pos rfl, insert, if_pos rfl, insert, if_neg hne]
    · have hmem : key ∈ Members.keys ms := (List.mem_cons.mp h).resolve_left (Ne.symm hkey)
      rw [if_neg hkey]
      by_cases hother : k = other
      · subst hother
        rw [if_pos rfl, insert, if_neg hkey, insert, if_pos rfl]
      · rw [if_neg hother, insert, if_neg hkey, insert, if_neg hother, ih hmem]

theorem get?_erase_of_ne {key other : Text} (h : key ≠ other) (ms : Members) :
    (ms.erase other).get? key = ms.get? key := by
  induction ms with
  | nil => rfl
  | cons m ms ih =>
    obtain ⟨k, w⟩ := m
    rw [get?_cons]
    by_cases hk : k = other
    · rw [erase, List.filter_cons_of_neg (by simpa using hk), if_neg (by rwa [hk])]
      exact ih
    · rw [erase, List.filter_cons_of_pos (by simpa using hk), get?_cons]
      exact congrArg (if key = k then some w else ·) ih

theorem get?_erase_self (ms : Members) (key : Text) : (ms.erase key).get? key = none := by
  induction ms with
  | nil => rfl
  | cons m ms ih =>
    by_cases hk : m.1 = key
    · rw [erase, List.filter_cons_of_neg (by simpa using hk)]
      exact ih
    · rw [erase, List.filter_cons_of_pos (by simpa using hk), get?_cons, if_neg (Ne.symm hk)]
      exact ih

theorem has_iff {ms : Members} {key : Text} : ms.has key = true ↔ ∃ v, ms.get? key = some v := by
  induction ms with
  | nil => simp [has]
  | cons m ms ih =>
    rw [get?_cons]
    by_cases h : key = m.1
    · simp [has, h]
    · have hne : m.1 ≠ key := fun heq => h heq.symm
      simp only [if_neg h, ← ih]
      simp [has, hne]

theorem mem_keys_iff {ms : Members} {key : Text} : key ∈ ms.keys ↔ ∃ v, ms.get? key = some v := by
  rw [← has_iff, has, List.any_eq_true, keys, List.mem_map]
  simp only [decide_eq_true_eq]

theorem keys_insert_of_mem {ms : Members} {key : Text} (h : key ∈ ms.keys) (v : Value) :
    (ms.insert key v).keys = ms.keys := by
  induction ms with
  | nil => cases h
  | cons m ms ih =>
    obtain ⟨k, w⟩ := m
    rw [insert]
    by_cases hkey : k = key
    · rw [if_pos hkey]
      rfl
    · have hmem : key ∈ Members.keys ms := (List.mem_cons.mp h).resolve_left (Ne.symm hkey)
      rw [if_neg hkey]
      exact congrArg (k :: ·) (ih hmem)

theorem keys_insert_of_not_mem {ms : Members} {key : Text} (h : key ∉ ms.keys) (v : Value) :
    (ms.insert key v).keys = ms.keys ++ [key] := by
  rw [insert_of_not_mem h, keys_append]
  rfl

theorem nodup_keys_insert {ms : Members} (h : ms.keys.Nodup) (key : Text) (v : Value) :
    (ms.insert key v).keys.Nodup := by
  by_cases hkey : key ∈ ms.keys
  · rw [keys_insert_of_mem hkey]
    exact h
  · rw [keys_insert_of_not_mem hkey, List.nodup_append]
    refine ⟨h, by simp, fun other hother _ hmem heq => hkey ?_⟩
    rw [← List.mem_singleton.mp hmem, ← heq]
    exact hother

/-- Of members overlaid, the keys that are new come to the end, each once. -/
theorem keys_overlay (ms ns : Members) :
    (ms.overlay ns).keys = ms.keys ++ (ns.keys.filter fun key => key ∉ ms.keys).eraseDups := by
  induction ns generalizing ms with
  | nil => simp [overlay, keys]
  | cons n ns ih =>
    obtain ⟨key, v⟩ := n
    rw [overlay_cons, ih]
    show _ = ms.keys ++ ((key :: Members.keys ns).filter fun key => key ∉ ms.keys).eraseDups
    by_cases h : key ∈ ms.keys
    · rw [keys_insert_of_mem h, List.filter_cons_of_neg (by simpa using h)]
    · rw [keys_insert_of_not_mem h, List.filter_cons_of_pos (by simpa using h),
        List.eraseDups_cons, List.filter_filter, List.append_assoc, List.singleton_append]
      congr 4
      funext other
      by_cases hother : other = key
      · simp [hother]
      · simp [hother, beq_false_of_ne hother]

theorem get?_append (ms ns : Members) (key : Text) :
    get? (ms ++ ns) key = (ms.get? key).or (ns.get? key) := List.lookup_append

/-- The value of a key in members overlaid is the last one set, if one is. -/
theorem get?_overlay (ms ns : Members) (key : Text) :
    (ms.overlay ns).get? key = (get? ns.reverse key).or (ms.get? key) := by
  induction ns generalizing ms with
  | nil => simp [overlay]
  | cons n ns ih =>
    obtain ⟨k, v⟩ := n
    rw [overlay_cons, ih, get?_insert, List.reverse_cons, get?_append, get?_cons, Option.or_assoc]
    split <;> rfl

/-- Members overlaid with values of which something holds. -/
theorem forall_mem_overlay {P : Value → Prop} {ms ns : Members} (hms : ∀ m ∈ ms, P m.2)
    (hns : ∀ n ∈ ns, P n.2) : ∀ m ∈ ms.overlay ns, P m.2 := by
  induction ns generalizing ms with
  | nil => exact hms
  | cons n ns ih =>
    obtain ⟨hn, hns⟩ := List.forall_mem_cons.mp hns
    exact ih (ms.forall_mem_insert hn hms) hns

end DocStore.Members
