import DocStore.Proofs.Value.Path
import DocStore.Settings.Layers

/-!
Settings at paths. A path of keys leads through objects to a value. What is no
object is at a path of merged layers exactly when one of the layers put it there
and no later one covers the path, be it with anything at the path itself or with
something on the way that is no object.
-/

namespace DocStore

namespace Value

/-- A value has something at a path, or something that is no object before its end: nothing else is
seen there under it. -/
def Covers (v : Value) (path : List Text) : Prop :=
  (∃ w, v.at? path = some w) ∨
    ∃ front w, front <+: path ∧ front ≠ path ∧ v.at? front = some w ∧ w.members? = none

/-- No object has a key twice, as far as one is reached through objects. -/
inductive KeysDiffer : Value → Prop
  | atom {v : Value} (h : v.members? = none) : KeysDiffer v
  | object {ms : Members} (hkeys : ms.keys.Nodup) (h : ∀ m ∈ ms, KeysDiffer m.2) :
      KeysDiffer (.object ms)

variable {v w : Value} {ms : Members} {key : Text} {path : List Text}

/-- What is no object covers every path under it. -/
theorem covers_of_members?_eq_none (h : v.members? = none) (path : List Text) : v.Covers path := by
  cases path with
  | nil => exact .inl ⟨v, at?_nil v⟩
  | cons key path => exact .inr ⟨[], v, List.nil_prefix, nofun, at?_nil v, h⟩

theorem covers_cons_iff :
    (Value.object ms).Covers (key :: path) ↔ ∃ w, ms.get? key = some w ∧ w.Covers path := by
  constructor
  · rintro (⟨v, hv⟩ | ⟨front, v, hfront, hne, hv, hatom⟩)
    · obtain ⟨w, hw, hv⟩ := Option.bind_eq_some_iff.mp hv
      exact ⟨w, hw, .inl ⟨v, hv⟩⟩
    · cases front with
      | nil =>
        -- The path begins at an object.
        cases hv
        cases hatom
      | cons k front =>
        obtain ⟨rfl, hrest⟩ := List.cons_prefix_cons.mp hfront
        obtain ⟨w, hw, hv⟩ := Option.bind_eq_some_iff.mp hv
        exact ⟨w, hw, .inr ⟨front, v, hrest, fun h => hne (by rw [h]), hv, hatom⟩⟩
  · rintro ⟨w, hw, ⟨v, hv⟩ | ⟨front, v, hfront, hne, hv, hatom⟩⟩
    · exact .inl ⟨v, by rw [at?_object_cons, hw]; exact hv⟩
    · refine .inr ⟨key :: front, v, List.cons_prefix_cons.mpr ⟨rfl, hfront⟩, ?_, ?_, hatom⟩
      · exact fun h => hne (List.cons.inj h).2
      · rw [at?_object_cons, hw]
        exact hv

theorem KeysDiffer.nodup (h : (Value.object ms).KeysDiffer) : ms.keys.Nodup := by
  cases h with
  | atom h => cases h
  | object hkeys => exact hkeys

theorem KeysDiffer.of_mem (h : (Value.object ms).KeysDiffer) : ∀ m ∈ ms, m.2.KeysDiffer := by
  cases h with
  | atom h => cases h
  | object _ h => exact h

theorem KeysDiffer.of_get? (h : (Value.object ms).KeysDiffer) (hv : ms.get? key = some v) :
    v.KeysDiffer := h.of_mem _ (Members.mem_of_get? hv)

theorem KeysDiffer.insert (h : (Value.object ms).KeysDiffer) (key : Text) (hv : v.KeysDiffer) :
    (Value.object (ms.insert key v)).KeysDiffer :=
  .object (Members.nodup_keys_insert h.nodup key v) (ms.forall_mem_insert hv h.of_mem)

end Value

namespace Settings

variable {base layer : Members} {key : Text} {path : List Text} {v : Value}

/-- What stands at a key once a value is merged over what stood there. -/
def mergedValue : Option Value → Value → Value
  | some (.object current), .object inner => .object (merge current inner)
  | _, v => v

theorem mergedValue_of_atom (h : v.members? = none) (current : Option Value) :
    mergedValue current v = v := by
  unfold mergedValue
  split
  · cases h
  · rfl

theorem merge_cons (base : Members) (key : Text) (v : Value) (rest : Members) :
    merge base ((key, v) :: rest) = merge (base.insert key (mergedValue (base.get? key) v)) rest := by
  cases v with
  | object inner =>
    rw [merge]
    cases base.get? key with
    | none => rfl
    | some current => cases current <;> rfl
  | _ =>
    rw [merge, mergedValue_of_atom rfl]
    rintro _ ⟨⟩

/-- Each key of a layer is merged once, over what the base has there. -/
theorem get?_merge (hkeys : layer.keys.Nodup) (key : Text) :
    (merge base layer).get? key =
      ((layer.get? key).map (mergedValue (base.get? key))).or (base.get? key) := by
  induction layer generalizing base with
  | nil => simp [merge]
  | cons m layer ih =>
    obtain ⟨k, w⟩ := m
    obtain ⟨hfresh, hkeys⟩ := List.nodup_cons.mp hkeys
    rw [merge_cons, ih hkeys, Members.get?_insert, Members.get?_cons]
    by_cases hkey : key = k
    · subst hkey
      have hnone : Members.get? layer key = none := by
        rw [← Option.not_isSome_iff_eq_none, Option.isSome_iff_exists]
        rintro ⟨v, hv⟩
        exact hfresh (Members.mem_keys_of_get? hv)
      simp [hnone]
    · simp [hkey]

/-- What is no object is at a path of a layer merged over another one: it is there in the layer, or
in the other one where the layer does not cover the path. -/
theorem at?_merge (hlayer : (Value.object layer).KeysDiffer) (hv : v.members? = none) :
    (Value.object (merge base layer)).at? path = some v ↔
      (Value.object layer).at? path = some v ∨
        (Value.object base).at? path = some v ∧ ¬(Value.object layer).Covers path := by
  induction path generalizing base layer with
  | nil =>
    have hne (ms : Members) : some (Value.object ms) ≠ some v := by
      rintro ⟨⟩
      cases hv
    simp [hne]
  | cons key path ih =>
    rw [Value.covers_cons_iff, Value.at?_object_cons, Value.at?_object_cons,
      get?_merge hlayer.nodup key]
    cases hw : layer.get? key with
    | none => simp
    | some w =>
      have hcovers : (∃ w', some w = some w' ∧ w'.Covers path) ↔ w.Covers path := by simp
      rw [hcovers]
      show (mergedValue (base.get? key) w).at? path = some v ↔ w.at? path = some v ∨ _
      by_cases hboth : ∃ current inner, base.get? key = some (.object current) ∧ w = .object inner
      · obtain ⟨current, inner, hbase, rfl⟩ := hboth
        rw [hbase]
        exact (ih (hlayer.of_get? hw)).trans (by rw [Value.at?_object_cons, hbase]; rfl)
      · have hmerged : mergedValue (base.get? key) w = w := by
          unfold mergedValue
          split
          next hbase => exact absurd ⟨_, _, hbase, rfl⟩ hboth
          next => rfl
        rw [hmerged]
        refine ⟨.inl, fun h => h.resolve_right ?_⟩
        rintro ⟨hbase, hcovered⟩
        obtain ⟨current, hcurrent, hbase⟩ := Option.bind_eq_some_iff.mp hbase
        -- The layer's value covers the path if it is no object, and else the base's one is none.
        cases hwatom : w.members? with
        | none => exact hcovered (Value.covers_of_members?_eq_none hwatom path)
        | some inner =>
          have hcurrentatom : current.members? = none := by
            cases current with
            | object ms =>
              cases w with
              | object inner => exact absurd ⟨ms, inner, hcurrent, rfl⟩ hboth
              | _ => cases hwatom
            | _ => rfl
          cases path with
          | nil => exact hcovered (.inl ⟨w, Value.at?_nil w⟩)
          | cons k path =>
            rw [Value.at?_cons_of_members?_eq_none hcurrentatom] at hbase
            cases hbase

/-- One of some layers has a value at a path, and no later one covers the path. -/
def LastGiven (layers : List Members) (path : List Text) (v : Value) : Prop :=
  ∃ before layer after, layers = before ++ layer :: after ∧
    (Value.object layer).at? path = some v ∧
      ∀ later ∈ after, ¬(Value.object later).Covers path

theorem lastGiven_cons {layers : List Members} :
    LastGiven (layer :: layers) path v ↔
      LastGiven layers path v ∨ (Value.object layer).at? path = some v ∧
        ∀ later ∈ layers, ¬(Value.object later).Covers path := by
  constructor
  · rintro ⟨before, found, after, hlayers, hfound, hafter⟩
    cases before with
    | nil =>
      cases hlayers
      exact .inr ⟨hfound, hafter⟩
    | cons first before =>
      cases hlayers
      exact .inl ⟨before, found, after, rfl, hfound, hafter⟩
  · rintro (⟨before, found, after, rfl, hfound, hafter⟩ | ⟨hfound, hafter⟩)
    · exact ⟨layer :: before, found, after, rfl, hfound, hafter⟩
    · exact ⟨[], layer, layers, rfl, hfound, hafter⟩

/-- What is no object is at a path of layers merged over a base: it was given there last, or stands
there in the base and no layer covers the path. -/
theorem at?_foldl_merge {layers : List Members} (hlayers : ∀ l ∈ layers, (Value.object l).KeysDiffer)
    (hv : v.members? = none) :
    (Value.object (layers.foldl merge base)).at? path = some v ↔
      LastGiven layers path v ∨ (Value.object base).at? path = some v ∧
        ∀ l ∈ layers, ¬(Value.object l).Covers path := by
  induction layers generalizing base with
  | nil => simp [LastGiven]
  | cons layer layers ih =>
    obtain ⟨hlayer, hlayers⟩ := List.forall_mem_cons.mp hlayers
    rw [List.foldl_cons, ih hlayers, at?_merge hlayer hv, lastGiven_cons, List.forall_mem_cons,
      or_and_right, or_assoc, and_assoc]

end Settings

end DocStore
