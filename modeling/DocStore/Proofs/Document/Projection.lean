import DocStore.Document.Projection
import DocStore.Proofs.Value.Path

/-!
What a projection leaves of a document. Fields are removed one after the other
and put into what remains one after the other, and each step is told by the paths
at which it leaves something; so the order of the fields does not matter, and
nothing is ever put into a value that is no object.
-/

namespace DocStore

namespace Value

/-- A value that is no object. -/
def leaf? : Value → Option Value
  | .object _ => none
  | v => some v

/-- What a path leads to: nothing, an object, or a value that is none. -/
def shape? (v : Value) (path : List Text) : Option (Option Value) := (v.at? path).map leaf?

variable {u v w : Value} {ms : Members} {key : Text} {path other : List Text}

theorem shape?_cons (ms : Members) (key : Text) (path : List Text) :
    (object ms).shape? (key :: path) = (ms.get? key).bind fun v => v.shape? path := by
  rw [shape?, at?_object_cons, Option.map_bind]
  rfl

theorem shape?_append (v : Value) (front rest : List Text) :
    v.shape? (front ++ rest) = (v.at? front).bind fun w => w.shape? rest := by
  rw [shape?, at?_append, Option.map_bind]
  rfl

theorem isSome_shape? : (v.shape? path).isSome = (v.at? path).isSome := Option.isSome_map

theorem shape?_eq_leaf_iff (hw : w.members? = none) :
    v.shape? path = some (some w) ↔ v.at? path = some w := by
  rw [shape?, Option.map_eq_some_iff]
  constructor
  · rintro ⟨u, hu, hleaf⟩
    cases u with
    | object ms => cases hleaf
    | _ =>
      cases hleaf
      exact hu
  · intro h
    refine ⟨w, h, ?_⟩
    cases w with
    | object ms => cases hw
    | _ => rfl

theorem members?_of_leaf?_eq_none (h : v.leaf? = none) : v.members? ≠ none := by
  cases v with
  | object ms => nofun
  | _ => cases h

/-- What something lies under is an object. -/
theorem shape?_of_isSome (h : (v.at? (path ++ key :: other)).isSome) : v.shape? path = some none := by
  rw [at?_append] at h
  rw [shape?]
  cases hpath : v.at? path with
  | none =>
    rw [hpath] at h
    cases h
  | some w =>
    rw [hpath] at h
    cases w with
    | object ms => rfl
    | _ => cases h

theorem shape?_insert (ms : Members) (key other : Text) (v : Value) (path : List Text) :
    (object (ms.insert key v)).shape? (other :: path) =
      if other = key then v.shape? path else (object ms).shape? (other :: path) := by
  rw [shape?_cons, shape?_cons, Members.get?_insert]
  split <;> rfl

theorem shape?_erase (ms : Members) (key other : Text) (path : List Text) :
    (object (ms.erase key)).shape? (other :: path) =
      if other = key then none else (object ms).shape? (other :: path) := by
  rw [shape?_cons, shape?_cons]
  split
  next h => rw [h, Members.get?_erase_self]; rfl
  next h => rw [Members.get?_erase_of_ne h]

/-- A value is another one cut to the paths of which something holds. -/
def IsCut (P : List Text → Prop) (v w : Value) : Prop :=
  ∀ path, (P path → w.shape? path = v.shape? path) ∧ (¬P path → w.shape? path = none)

namespace IsCut

variable {P Q : List Text → Prop}

theorem refl (v : Value) : IsCut (fun _ => True) v v := fun _ => ⟨fun _ => rfl, fun h => absurd trivial h⟩

theorem of_cons {ms ms' : Members} (hnil : P [])
    (h : ∀ key path, (P (key :: path) → (object ms').shape? (key :: path) =
        (object ms).shape? (key :: path)) ∧
      (¬P (key :: path) → (object ms').shape? (key :: path) = none)) :
    IsCut P (object ms) (object ms')
  | [] => ⟨fun _ => rfl, fun hnot => absurd hnil hnot⟩
  | key :: path => h key path

theorem trans (h : IsCut P u v) (h' : IsCut Q v w) : IsCut (fun path => P path ∧ Q path) u w := by
  intro path
  by_cases hq : Q path
  · rw [(h' path).1 hq]
    exact ⟨fun hpq => (h path).1 hpq.1, fun hpq => (h path).2 fun hp => hpq ⟨hp, hq⟩⟩
  · exact ⟨fun hpq => absurd hpq.2 hq, fun _ => (h' path).2 hq⟩

/-- Only the paths that lead somewhere matter. -/
theorem congr (h : IsCut P v w) (hpq : ∀ path, (v.at? path).isSome → (P path ↔ Q path)) :
    IsCut Q v w := by
  intro path
  by_cases hsome : (v.at? path).isSome
  · rw [← hpq path hsome]
    exact h path
  · have hnone : v.shape? path = none := by
      rw [← Option.not_isSome_iff_eq_none, isSome_shape?]
      exact hsome
    have hcut : w.shape? path = none := by
      by_cases hp : P path
      · rw [(h path).1 hp, hnone]
      · exact (h path).2 hp
    exact ⟨fun _ => hcut.trans hnone.symm, fun _ => hcut⟩

theorem isSome_at?_iff (h : IsCut P v w) : (w.at? path).isSome ↔ (v.at? path).isSome ∧ P path := by
  rw [← isSome_shape?, ← isSome_shape?]
  by_cases hp : P path
  · rw [(h path).1 hp, and_iff_left hp]
  · rw [(h path).2 hp]
    exact iff_of_false Bool.false_ne_true fun hand => hp hand.2

theorem at?_eq_some_iff (h : IsCut P v w) (hu : u.members? = none) :
    w.at? path = some u ↔ v.at? path = some u ∧ P path := by
  rw [← shape?_eq_leaf_iff hu, ← shape?_eq_leaf_iff hu]
  by_cases hp : P path
  · rw [(h path).1 hp, and_iff_left hp]
  · rw [(h path).2 hp]
    exact iff_of_false nofun fun hand => hp hand.2

end IsCut

end Value

theorem Text.eq_of_split_eq_singleton {mark : CodePoint} {t part : Text}
    (h : t.split mark = [part]) : t = part := by
  induction t generalizing part with
  | nil => cases h; rfl
  | cons c t ih =>
    rw [split] at h
    split at h
    · exact absurd (List.cons.inj h).2 (split_ne_nil mark t)
    · cases hparts : split mark t with
      | nil => exact absurd hparts (split_ne_nil mark t)
      | cons first parts =>
        rw [hparts] at h
        cases h
        rw [ih hparts]

namespace Projection

open Value

variable {ms ms' : Members} {v : Value} {path : List Text}

/-- Under a key that holds no object nothing is found. -/
theorem at?_cons_of_atom {key next : Text} {path : List Text}
    (h : ∀ inner, ms.get? key ≠ some (.object inner)) :
    (object ms).at? (key :: next :: path) = none := by
  rw [at?_object_cons]
  cases hv : ms.get? key with
  | none => rfl
  | some v =>
    cases v with
    | object inner => exact absurd hv (h inner)
    | _ => rfl

theorem find?_eq (path : List Text) (ms : Members) : find? path ms = (object ms).at? path := by
  fun_induction find? path ms with
  | case1 ms => rfl
  | case2 key ms => simp
  | case3 key path ms hne inner hget ih => simp [hget, ih]
  | case4 key path ms hne hget =>
    obtain ⟨next, path, rfl⟩ := List.exists_cons_of_ne_nil hne
    exact (at?_cons_of_atom hget).symm

/-! ### Fields that are left out -/

/-- What is removed is the path with all that lies under it. -/
theorem isCut_remove (hpath : path ≠ []) (ms : Members) :
    IsCut (fun other => ¬path <+: other) (object ms) (object (remove path ms)) := by
  have hnil : ¬path <+: [] := fun h => hpath (List.prefix_nil.mp h)
  fun_induction remove path ms with
  | case1 => exact absurd rfl hpath
  | case2 key ms =>
    refine .of_cons hnil fun k other => ?_
    rw [shape?_erase]
    by_cases hk : k = key
    · rw [if_pos hk]
      exact ⟨fun hnot => absurd (by rw [hk]; exact List.prefix_append [key] other) hnot, fun _ => rfl⟩
    · rw [if_neg hk]
      exact ⟨fun _ => rfl, fun hnot => absurd (List.cons_prefix_cons.mp (Classical.not_not.mp hnot)).1.symm hk⟩
  | case3 key path ms hne inner hget ih =>
    have hinner := ih hne fun h => hne (List.prefix_nil.mp h)
    refine .of_cons hnil fun k other => ?_
    rw [shape?_insert]
    by_cases hk : k = key
    · subst hk
      rw [if_pos rfl, shape?_cons, hget, List.cons_prefix_cons, eq_self_iff_true, true_and]
      exact hinner other
    · rw [if_neg hk]
      exact ⟨fun _ => rfl, fun hnot => absurd (List.cons_prefix_cons.mp (Classical.not_not.mp hnot)).1.symm hk⟩
  | case4 key path ms hne hget =>
    refine .of_cons hnil fun k other => ⟨fun _ => rfl, fun hnot => ?_⟩
    obtain ⟨next, path, rfl⟩ := List.exists_cons_of_ne_nil hne
    obtain ⟨rest, hrest⟩ := Classical.not_not.mp hnot
    rw [← hrest, shape?]
    exact congrArg (Option.map leaf?) (at?_cons_of_atom hget)

/-- Fields that are left out one after the other are all left out. -/
theorem isCut_dropFields (fields : List Text) (ms : Members) :
    IsCut (fun path => ∀ field ∈ fields, ¬field.split '.' <+: path) (object ms)
      (object (dropFields fields ms)) := by
  induction fields generalizing ms with
  | nil => exact (IsCut.refl _).congr fun path _ => by simp
  | cons field fields ih =>
    refine ((isCut_remove (Text.split_ne_nil '.' field) ms).trans (ih _)).congr fun path _ => ?_
    rw [List.forall_mem_cons]

/-! ### Fields that are kept -/

/-- A value was put at a path of members: objects lead to it, and beside it all is as it was. -/
structure IsPut (v : Value) (path : List Text) (ms ms' : Members) : Prop where
  under : ∀ rest, (object ms').shape? (path ++ rest) = v.shape? rest
  before : ∀ front, front <+: path → front ≠ path → (object ms').shape? front = some none
  beside : ∀ other, ¬path <+: other → ¬other <+: path →
    (object ms').shape? other = (object ms).shape? other

theorem isPut_singleton (v : Value) (key : Text) (ms : Members) :
    IsPut v [key] ms (ms.insert key v) where
  under rest := by rw [List.singleton_append, shape?_insert, if_pos rfl]
  before front hfront hne := by
    cases front with
    | nil => rfl
    | cons k front =>
      obtain ⟨rfl, hnil⟩ := List.cons_prefix_cons.mp hfront
      exact absurd (by rw [List.prefix_nil.mp hnil]) hne
  beside other hunder hbefore := by
    cases other with
    | nil => exact absurd List.nil_prefix hbefore
    | cons k other =>
      have hk : k ≠ key := fun hk => hunder (by rw [hk]; exact List.prefix_append [key] other)
      rw [shape?_insert, if_neg hk]

/-- What is put into the object at a key, or into a new one, is put into the members. -/
theorem IsPut.cons {inner inner' : Members} {key : Text} (h : IsPut v path inner inner')
    (hinner : ∀ k rest, (object ms).shape? (key :: k :: rest) = (object inner).shape? (k :: rest)) :
    IsPut v (key :: path) ms (ms.insert key (.object inner')) where
  under rest := by rw [List.cons_append, shape?_insert, if_pos rfl, h.under]
  before front hfront hne := by
    cases front with
    | nil => rfl
    | cons k front =>
      obtain ⟨rfl, hrest⟩ := List.cons_prefix_cons.mp hfront
      rw [shape?_insert, if_pos rfl]
      exact h.before front hrest fun heq => hne (by rw [heq])
  beside other hunder hbefore := by
    cases other with
    | nil => exact absurd List.nil_prefix hbefore
    | cons k other =>
      rw [shape?_insert]
      by_cases hk : k = key
      · subst hk
        rw [List.cons_prefix_cons, eq_self_iff_true, true_and] at hunder hbefore
        rw [if_pos rfl, h.beside other hunder hbefore]
        cases other with
        | nil => exact absurd List.nil_prefix hbefore
        | cons next rest => exact (hinner next rest).symm
      · rw [if_neg hk]

/-- Where nothing on the way is anything but an object, a value can be put. -/
theorem exists_put (v : Value) (hpath : path ≠ []) (ms : Members)
    (h : ∀ front w, front <+: path → front ≠ path → (object ms).at? front = some w →
      w.members? ≠ none) : ∃ ms', put v path ms = .ok ms' ∧ IsPut v path ms ms' := by
  fun_induction put v path ms with
  | case1 => exact absurd rfl hpath
  | case2 key ms => exact ⟨_, rfl, isPut_singleton v key ms⟩
  | case3 key next path ms hget ih =>
    obtain ⟨inner', hput, hinner⟩ := ih (List.cons_ne_nil _ _) fun front w hfront hne hw => by
      cases front with
      | nil => cases hw; nofun
      | cons k front => cases hw
    refine ⟨ms.insert key (.object inner'), by rw [hput]; rfl, hinner.cons fun k rest => ?_⟩
    rw [shape?_cons, hget]
    rfl
  | case4 key next path ms inner hget ih =>
    obtain ⟨inner', hput, hinner⟩ := ih (List.cons_ne_nil _ _) fun front w hfront hne hw =>
      h (key :: front) w (List.cons_prefix_cons.mpr ⟨rfl, hfront⟩)
        (fun heq => hne (List.cons.inj heq).2) (by rw [at?_object_cons, hget]; exact hw)
    refine ⟨ms.insert key (.object inner'), by rw [hput]; rfl, hinner.cons fun k rest => ?_⟩
    rw [shape?_cons, hget]
    rfl
  | case5 key next path ms w hatom hget =>
    have hobject := h [key] w (List.prefix_append [key] (next :: path)) (by simp)
      (by rw [at?_object_cons, hget]; exact at?_nil w)
    cases w with
    | object inner => exact absurd rfl (hatom inner)
    | _ => exact absurd rfl hobject

/-- What stands at a path of a value can be put there in what the value was cut to, and nothing else
is new in it. -/
theorem exists_put_isCut {P : List Text → Prop} {u : Value} (h : IsCut P u (object ms))
    (hpath : path ≠ []) (hat : u.at? path = some v) : ∃ ms', put v path ms = .ok ms' ∧
      IsCut (fun other => P other ∨ path <+: other ∨ other <+: path) u (object ms') := by
  have hobject {front : List Text} (hfront : front <+: path) (hne : front ≠ path) :
      u.shape? front = some none := by
    obtain ⟨_ | ⟨key, rest⟩, rfl⟩ := hfront
    · exact absurd (List.append_nil front).symm hne
    · exact shape?_of_isSome (by rw [hat]; rfl)
  obtain ⟨ms', hput, hms'⟩ := exists_put v hpath ms fun front w hfront hne hw => by
    have hshape : (object ms).shape? front = some w.leaf? := by rw [shape?, hw]; rfl
    by_cases hp : P front
    · rw [(h front).1 hp, hobject hfront hne] at hshape
      exact members?_of_leaf?_eq_none (Option.some.inj hshape).symm
    · rw [(h front).2 hp] at hshape
      cases hshape
  refine ⟨ms', hput, fun other => ?_⟩
  by_cases hunder : path <+: other
  · obtain ⟨rest, rfl⟩ := hunder
    rw [hms'.under, shape?_append, hat]
    exact ⟨fun _ => rfl, fun hnot => absurd (.inr (.inl (List.prefix_append path rest))) hnot⟩
  by_cases hbefore : other <+: path
  · have hne : other ≠ path := fun heq => hunder (heq ▸ List.prefix_rfl)
    rw [hms'.before other hbefore hne, hobject hbefore hne]
    exact ⟨fun _ => rfl, fun hnot => absurd (.inr (.inr hbefore)) hnot⟩
  · have hother : P other ∨ path <+: other ∨ other <+: path ↔ P other :=
      or_iff_left (not_or.mpr ⟨hunder, hbefore⟩)
    rw [hms'.beside other hunder hbefore]
    exact ⟨fun hp => (h other).1 (hother.mp hp), fun hnot => (h other).2 (mt hother.mpr hnot)⟩

/-- The paths at which something was kept of what remained: the `_id`, and what a kept field leads to,
with what lies above and under it. -/
def Reached (remaining : Members) (fields : List Text) (path : List Text) : Prop :=
  path = [] ∨ [idField] <+: path ∨ ∃ field ∈ fields,
    ((object remaining).at? (field.split '.')).isSome ∧
      (field.split '.' <+: path ∨ path <+: field.split '.')

variable {remaining kept : Members} {fields : List Text}

theorem get?_idMember (ms : Members) (key : Text) :
    (idMember ms).get? key = if key = idField then ms.get? key else none := by
  rw [idMember]
  by_cases hkey : key = idField
  · rw [if_pos hkey, hkey]
    cases ms.get? idField with
    | none => rfl
    | some id => rw [Members.get?_cons, if_pos rfl]
  · rw [if_neg hkey]
    cases ms.get? idField with
    | none => rfl
    | some id => rw [Members.get?_cons, if_neg hkey]; rfl

theorem isCut_idMember (remaining : Members) :
    IsCut (Reached remaining []) (object remaining) (object (idMember remaining)) := by
  refine .of_cons (.inl rfl) fun key path => ?_
  rw [shape?_cons, get?_idMember, shape?_cons]
  by_cases hkey : key = idField
  · have hreached : Reached remaining [] (key :: path) := by
      rw [hkey]
      exact .inr (.inl (List.prefix_append [idField] path))
    rw [if_pos hkey]
    exact ⟨fun _ => rfl, fun hnot => absurd hreached hnot⟩
  · have hnot : ¬Reached remaining [] (key :: path) := by
      rintro (hnil | hid | ⟨field, hmem, -⟩)
      · cases hnil
      · exact hkey (List.cons_prefix_cons.mp hid).1.symm
      · cases hmem
    rw [if_neg hkey]
    exact ⟨fun h => absurd h hnot, fun _ => rfl⟩

theorem reached_concat_iff {field : Text} : Reached remaining (fields ++ [field]) path ↔
    Reached remaining fields path ∨ ((object remaining).at? (field.split '.')).isSome ∧
      (field.split '.' <+: path ∨ path <+: field.split '.') := by
  simp only [Reached, List.mem_append, List.mem_singleton, or_and_right, exists_or, exists_eq_left,
    or_assoc]

/-- A kept field is added to what was kept, and nothing else is. -/
theorem exists_keepField (h : IsCut (Reached remaining fields) (object remaining) (object kept))
    (field : Text) : ∃ kept', keepField remaining kept field = .ok kept' ∧
      IsCut (Reached remaining (fields ++ [field])) (object remaining) (object kept') := by
  rw [keepField]
  by_cases hid : field = idField
  · -- The `_id` is there already.
    refine ⟨kept, if_pos hid, h.congr fun path _ => ?_⟩
    rw [reached_concat_iff, hid, or_iff_left_of_imp]
    rintro ⟨-, hunder | hbefore⟩
    · exact .inr (.inl hunder)
    · obtain rfl | ⟨rest, rfl, hrest⟩ := List.prefix_cons_iff.mp hbefore
      · exact .inl rfl
      · exact .inr (.inl (List.prefix_append [idField] rest))
  rw [if_neg hid, find?_eq]
  cases hat : (object remaining).at? (field.split '.') with
  | none =>
    refine ⟨kept, rfl, h.congr fun path _ => ?_⟩
    rw [reached_concat_iff, or_iff_left_of_imp]
    rintro ⟨hsome, -⟩
    rw [hat] at hsome
    cases hsome
  | some v =>
    obtain ⟨kept', hput, hcut⟩ := exists_put_isCut h (Text.split_ne_nil '.' field) hat
    refine ⟨kept', hput, hcut.congr fun path _ => ?_⟩
    rw [reached_concat_iff, hat, Option.isSome_some, eq_self_iff_true, true_and]

/-- Fields that are kept are added one after the other. -/
theorem exists_foldlM_keepField (more : List Text)
    (h : IsCut (Reached remaining fields) (object remaining) (object kept)) :
    ∃ kept', more.foldlM (keepField remaining) kept = .ok kept' ∧
      IsCut (Reached remaining (fields ++ more)) (object remaining) (object kept') := by
  induction more generalizing fields kept with
  | nil => exact ⟨kept, rfl, by rwa [List.append_nil]⟩
  | cons field more ih =>
    obtain ⟨kept₁, hfield, h₁⟩ := exists_keepField h field
    obtain ⟨kept₂, hmore, h₂⟩ := ih h₁
    refine ⟨kept₂, ?_, by rwa [List.append_assoc] at h₂⟩
    rw [List.foldlM_cons, hfield]
    exact hmore

/-! ### Projections -/

theorem split_idField : Text.split '.' idField = [idField] := by decide

/-- What is kept of a document, be it all that remains. -/
theorem exists_kept (p : Projection) (remaining : Members) : ∃ kept,
    (if p.keep.isEmpty then .ok remaining
      else p.keep.foldlM (keepField remaining) (idMember remaining)) = .ok kept ∧
    IsCut (fun path => p.keep = [] ∨ Reached remaining p.keep path) (object remaining)
      (object kept) := by
  by_cases hkeep : p.keep = []
  · refine ⟨remaining, if_pos (List.isEmpty_iff.mpr hkeep), (IsCut.refl _).congr fun path _ => ?_⟩
    exact iff_of_true trivial (.inl hkeep)
  · obtain ⟨kept, hfold, hkept⟩ := exists_foldlM_keepField p.keep (isCut_idMember remaining)
    refine ⟨kept, ?_, hkept.congr fun path _ => ?_⟩
    · rw [if_neg (mt List.isEmpty_iff.mp hkeep), hfold]
    · rw [or_iff_right hkeep, List.nil_append]

theorem applyMembers_eq (p : Projection) (ms : Members) : p.applyMembers ms =
    (if p.keep.isEmpty then .ok (dropFields p.drop ms)
      else p.keep.foldlM (keepField (dropFields p.drop ms)) (idMember (dropFields p.drop ms))).map
      fun kept => if idField ∈ p.drop then kept.erase idField else kept := by
  rw [applyMembers]
  split <;> rfl

/-- A projection can be applied to every document, and cuts it to certain paths. -/
theorem exists_applyMembers (p : Projection) (ms : Members) :
    ∃ result, p.applyMembers ms = .ok result ∧
      IsCut (fun path => (∀ field ∈ p.drop, ¬field.split '.' <+: path) ∧
        (p.keep = [] ∨ Reached (dropFields p.drop ms) p.keep path)) (object ms) (object result) := by
  obtain ⟨kept, hkept, hcut⟩ := exists_kept p (dropFields p.drop ms)
  have hcut := (isCut_dropFields p.drop ms).trans hcut
  rw [applyMembers_eq, hkept]
  by_cases hid : idField ∈ p.drop
  · -- Nothing is there any more to be removed.
    refine ⟨kept.erase idField, congrArg Except.ok (if_pos hid),
      (hcut.trans (isCut_remove (List.cons_ne_nil idField []) kept)).congr fun path _ => ?_⟩
    refine and_iff_left_of_imp fun hpath => ?_
    rw [← split_idField]
    exact hpath.1 idField hid
  · exact ⟨kept, congrArg Except.ok (if_neg hid), hcut⟩

/-- A path of a document that no field left out leads to or above. -/
def Remains (spec ms : Members) (path : List Text) : Prop :=
  ((object ms).at? path).isSome ∧ ∀ m ∈ spec, m.2.isTruthy = false → ¬m.1.split '.' <+: path

/-- A path of a document that a specification keeps: where it keeps any fields, one that is under the
`_id`, or under or above a kept field that remains. -/
def Keeps (spec ms : Members) (path : List Text) : Prop :=
  Remains spec ms path ∧ ((∀ m ∈ spec, m.2.isTruthy = false) ∨ [idField] <+: path ∨
    ∃ m ∈ spec, m.2.isTruthy = true ∧ Remains spec ms (m.1.split '.') ∧
      (m.1.split '.' <+: path ∨ path <+: m.1.split '.'))

instance (spec ms : Members) (path : List Text) : Decidable (Remains spec ms path) :=
  inferInstanceAs (Decidable (_ ∧ ∀ m ∈ spec, _ → ¬_))

instance (spec ms : Members) (path : List Text) : Decidable (Keeps spec ms path) :=
  inferInstanceAs (Decidable (_ ∧ ((∀ m ∈ spec, _) ∨ _ ∨ ∃ m ∈ spec, _ ∧ _ ∧ (_ ∨ _))))

/-- A projection has the fields of a specification, each by its flag. -/
structure IsOf (p : Projection) (spec : Members) : Prop where
  mem_keep : ∀ field, field ∈ p.keep ↔ ∃ m ∈ spec, m.2.isTruthy = true ∧ m.1 = field
  mem_drop : ∀ field, field ∈ p.drop ↔ ∃ m ∈ spec, m.2.isTruthy = false ∧ m.1 = field

variable {spec : Members} {p : Projection}

/-- A specification that says anything gives a projection. -/
theorem exists_ofValue (h : spec ≠ []) : ∃ p, ofValue (.object spec) = .ok (some p) ∧ p.IsOf spec := by
  obtain ⟨m, spec, rfl⟩ := List.exists_cons_of_ne_nil h
  refine ⟨_, rfl, fun field => ?_, fun field => ?_⟩ <;>
    simp only [List.mem_map, List.mem_filter, Bool.not_eq_true']
  · constructor
    · rintro ⟨_, ⟨⟨m, hm, rfl⟩, hflag⟩, heq⟩
      exact ⟨m, hm, hflag, heq⟩
    · rintro ⟨m, hm, hflag, heq⟩
      exact ⟨_, ⟨⟨m, hm, rfl⟩, hflag⟩, heq⟩
  · constructor
    · rintro ⟨_, ⟨⟨m, hm, rfl⟩, hflag⟩, heq⟩
      exact ⟨m, hm, hflag, heq⟩
    · rintro ⟨m, hm, hflag, heq⟩
      exact ⟨_, ⟨⟨m, hm, rfl⟩, hflag⟩, heq⟩

theorem IsOf.forall_drop_iff (h : p.IsOf spec) {Q : Text → Prop} :
    (∀ field ∈ p.drop, Q field) ↔ ∀ m ∈ spec, m.2.isTruthy = false → Q m.1 := by
  simp only [h.mem_drop]
  exact ⟨fun hall m hm hflag => hall _ ⟨m, hm, hflag, rfl⟩,
    fun hall _ ⟨m, hm, hflag, heq⟩ => heq ▸ hall m hm hflag⟩

theorem IsOf.exists_keep_iff (h : p.IsOf spec) {Q : Text → Prop} :
    (∃ field ∈ p.keep, Q field) ↔ ∃ m ∈ spec, m.2.isTruthy = true ∧ Q m.1 := by
  simp only [h.mem_keep]
  exact ⟨fun ⟨_, ⟨m, hm, hflag, heq⟩, hq⟩ => ⟨m, hm, hflag, heq ▸ hq⟩,
    fun ⟨m, hm, hflag, hq⟩ => ⟨_, ⟨m, hm, hflag, rfl⟩, hq⟩⟩

theorem IsOf.keep_eq_nil_iff (h : p.IsOf spec) :
    p.keep = [] ↔ ∀ m ∈ spec, m.2.isTruthy = false := by
  simp only [List.eq_nil_iff_forall_not_mem, h.mem_keep, ← Bool.not_eq_true]
  exact ⟨fun hnone m hm hflag => hnone m.1 ⟨m, hm, hflag, rfl⟩,
    fun hall _ ⟨m, hm, hflag, _⟩ => hall m hm hflag⟩

/-- The paths to which a document is cut, by the specification. -/
theorem IsOf.keeps_iff (h : p.IsOf spec) (hpath : path ≠ []) : Keeps spec ms path ↔
    ((object ms).at? path).isSome ∧ (∀ field ∈ p.drop, ¬field.split '.' <+: path) ∧
      (p.keep = [] ∨ Reached (dropFields p.drop ms) p.keep path) := by
  have hremains (other : List Text) : ((object (dropFields p.drop ms)).at? other).isSome ↔
      Remains spec ms other := by
    rw [(isCut_dropFields p.drop ms).isSome_at?_iff, Remains, h.forall_drop_iff]
  rw [Keeps, Remains, and_assoc, h.forall_drop_iff, h.keep_eq_nil_iff, Reached, or_iff_right hpath,
    h.exists_keep_iff]
  simp only [hremains]

/-- No other field than the `_id` leads to it, nor above it. -/
theorem split_prefix_idField_iff {field : Text} : field.split '.' <+: [idField] ↔ field = idField := by
  constructor
  · intro h
    obtain hnil | ⟨rest, hrest, hempty⟩ := List.prefix_cons_iff.mp h
    · exact absurd hnil (Text.split_ne_nil '.' field)
    · rw [List.prefix_nil.mp hempty] at hrest
      exact Text.eq_of_split_eq_singleton hrest
  · rintro rfl
    exact ⟨[], (List.append_nil _).trans split_idField⟩

theorem keeps_idField_iff : Keeps spec ms [idField] ↔
    (ms.get? idField).isSome ∧ ∀ m ∈ spec, m.1 = idField → m.2.isTruthy = true := by
  have hat : (object ms).at? [idField] = ms.get? idField := by
    rw [at?_object_cons]
    simp
  rw [Keeps, and_iff_left (.inr (.inl List.prefix_rfl)), Remains, hat]
  simp only [split_prefix_idField_iff]
  refine and_congr_right fun _ => forall₂_congr fun m _ => ?_
  cases m.2.isTruthy <;> simp

/-- A projection leaves of a document the paths that its specification keeps, whatever the order of
its fields, with the same values at their ends. -/
theorem applies_keeps (h : spec ≠ []) (ms : Members) : ∃ (p : Projection) (result : Members),
    ofValue (.object spec) = .ok (some p) ∧ p.apply (.object ms) = .ok (.object result) ∧
      (∀ path ≠ [], ((object result).at? path).isSome ↔ Keeps spec ms path) ∧
      (∀ path ≠ [], ∀ v, v.members? = none →
        ((object result).at? path = some v ↔ Keeps spec ms path ∧ (object ms).at? path = some v)) ∧
      ((result.get? idField).isSome ↔
        (ms.get? idField).isSome ∧ ∀ m ∈ spec, m.1 = idField → m.2.isTruthy = true) := by
  obtain ⟨p, hp, hof⟩ := exists_ofValue h
  obtain ⟨result, hresult, hcut⟩ := exists_applyMembers p ms
  have hkeeps {path : List Text} (hpath : path ≠ []) :
      ((object result).at? path).isSome ↔ Keeps spec ms path := by
    rw [hcut.isSome_at?_iff, hof.keeps_iff hpath]
  refine ⟨p, result, hp, ?_, fun path hpath => hkeeps hpath, fun path hpath v hv => ?_, ?_⟩
  · rw [apply, Members.ofValue]
    exact congrArg (Except.map Value.object) hresult
  · rw [hcut.at?_eq_some_iff hv, hof.keeps_iff hpath]
    exact ⟨fun ⟨hat, hp⟩ => ⟨⟨by rw [hat]; rfl, hp⟩, hat⟩, fun ⟨⟨_, hp⟩, hat⟩ => ⟨hat, hp⟩⟩
  · rw [← keeps_idField_iff, ← hkeeps (List.cons_ne_nil _ _), at?_object_cons]
    simp

/-- A field that is kept but for a part of it. -/
theorem applies_keeps_part :
    [(("a.b" : Text), Value.bool true), ("a.b.c", .bool false)] ≠ [] ∧
    ∃ (p : Projection) (result : Members),
      ofValue (.object [("a.b", .bool true), ("a.b.c", .bool false)]) = .ok (some p) ∧
      p.apply (.object [(idField, .int 1),
        ("a", .object [("b", .object [("c", .int 2), ("d", .int 3)]), ("e", .int 4)])]) =
        .ok (.object result) ∧
      (object result).at? ["a", "b", "d"] = some (.int 3) ∧
      ¬((object result).at? ["a", "b", "c"]).isSome ∧ ¬((object result).at? ["a", "e"]).isSome ∧
      (result.get? idField).isSome := by
  have hne : [(("a.b" : Text), Value.bool true), ("a.b.c", .bool false)] ≠ [] := List.cons_ne_nil _ _
  obtain ⟨p, result, hp, hresult, hpaths, hleaves, hid⟩ := applies_keeps hne
    [(idField, .int 1), ("a", .object [("b", .object [("c", .int 2), ("d", .int 3)]), ("e", .int 4)])]
  refine ⟨hne, p, result, hp, hresult, ?_, ?_, ?_, ?_⟩
  · exact (hleaves _ (List.cons_ne_nil _ _) _ rfl).mpr ⟨by decide +kernel, rfl⟩
  · rw [hpaths _ (List.cons_ne_nil _ _)]
    decide +kernel
  · rw [hpaths _ (List.cons_ne_nil _ _)]
    decide +kernel
  · exact hid.mpr (by decide +kernel)

end Projection

end DocStore
