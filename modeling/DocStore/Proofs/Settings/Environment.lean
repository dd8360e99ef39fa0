import DocStore.Proofs.Settings.Layers
import DocStore.Proofs.Settings.Scalar

/-!
Settings from named values of which no path is another one or begins another
one. Each value stands at its path as it was read, and nothing else comes to be
but the objects that lead there. So the order of the names makes no difference
but to the order of the keys.
-/

namespace DocStore

namespace Value

/-- Values that differ in the order of keys only, in objects that are reached through objects. -/
inductive Rearranged : Value → Value → Prop where
  | same (v : Value) : Rearranged v v
  | object {ms ns : Members} (hkeys : ms.keys.Perm ns.keys)
      (h : ∀ key v w, ms.get? key = some v → ns.get? key = some w → Rearranged v w) :
      Rearranged (.object ms) (.object ns)

/-- At a path, two values have the same or nothing, or each has an object. -/
def AgreeAt (v w : Value) (path : List Text) : Prop :=
  v.at? path = w.at? path ∨
    ∃ ms ns, v.at? path = some (.object ms) ∧ w.at? path = some (.object ns)

theorem AgreeAt.isSome_iff {v w : Value} {path : List Text} (h : AgreeAt v w path) :
    (∃ u, v.at? path = some u) ↔ ∃ u, w.at? path = some u := by
  obtain h | ⟨ms, ns, hv, hw⟩ := h
  · rw [h]
  · exact iff_of_true ⟨_, hv⟩ ⟨_, hw⟩

/-- Values that agree at every path are rearranged, as no object in them has a key twice. -/
theorem KeysDiffer.rearranged {v w : Value} (hv : v.KeysDiffer) (hw : w.KeysDiffer)
    (h : ∀ path, AgreeAt v w path) : Rearranged v w := by
  induction hv generalizing w with
  | atom hatom =>
    obtain h | ⟨ms, ns, hv, -⟩ := h []
    · rw [at?_nil, at?_nil] at h
      cases h
      exact .same _
    · rw [at?_nil] at hv
      cases hv
      cases hatom
  | @object ms hkeys _ ih =>
    obtain heq | ⟨_, ns, -, hns⟩ := h []
    · rw [at?_nil, at?_nil] at heq
      cases heq
      exact .same _
    · rw [at?_nil] at hns
      cases hns
      have hget (ms : Members) (key : Text) : (Value.object ms).at? [key] = ms.get? key := by
        rw [at?_object_cons]
        cases ms.get? key <;> simp
      have hmem (key : Text) : key ∈ ms.keys ↔ key ∈ Members.keys ns := by
        have hsome := (h [key]).isSome_iff
        rw [hget, hget] at hsome
        rw [Members.mem_keys_iff, Members.mem_keys_iff, hsome]
      refine .object ((List.perm_ext_iff_of_nodup hkeys hw.nodup).mpr hmem) fun key u x hu hx =>
        ih (key, u) (Members.mem_of_get? hu) (hw.of_get? hx) fun path => ?_
      have hpath := h (key :: path)
      rwa [AgreeAt, at?_object_cons, at?_object_cons, hu, hx] at hpath

end Value

namespace Settings

variable {v : Value} {ms : Members} {path : List Text}

/-! ### One value nested -/

/-- The members of the object at a key, and none where no object stands. -/
def membersAt (ms : Members) (key : Text) : Members :=
  match ms.get? key with
  | some (.object inner) => inner
  | _ => []

theorem nest_cons (v : Value) (key : Text) (hpath : path ≠ []) (ms : Members) :
    nest v (key :: path) ms = ms.insert key (.object (nest v path (membersAt ms key))) := by
  rw [nest.eq_3 v ms key path hpath, membersAt]
  cases ms.get? key with
  | none => rfl
  | some w => cases w <;> rfl

theorem at?_membersAt (ms : Members) (key : Text) (hpath : path ≠ []) :
    (Value.object (membersAt ms key)).at? path = (Value.object ms).at? (key :: path) := by
  obtain ⟨next, path, rfl⟩ := List.exists_cons_of_ne_nil hpath
  rw [Value.at?_object_cons ms, membersAt]
  split
  next inner hinner => rw [hinner, Option.bind_some]
  next hnone =>
    cases hv : ms.get? key with
    | none => rfl
    | some v =>
      cases v with
      | object inner => exact absurd hv (hnone inner)
      | _ => rfl

/-- Where a value is nested, it is found as it is. -/
theorem at?_nest_append (v : Value) (hpath : path ≠ []) (ms : Members) (rest : List Text) :
    (Value.object (nest v path ms)).at? (path ++ rest) = v.at? rest := by
  induction path generalizing ms with
  | nil => exact absurd rfl hpath
  | cons key path ih =>
    rw [List.cons_append, Value.at?_object_cons]
    cases path with
    | nil => rw [nest, Members.get?_insert, if_pos rfl, Option.bind_some, List.nil_append]
    | cons next path =>
      rw [nest_cons v key (List.cons_ne_nil next path), Members.get?_insert, if_pos rfl,
        Option.bind_some, ih (List.cons_ne_nil next path)]

/-- Objects lead to a value that is nested. -/
theorem at?_nest_front (v : Value) {front : List Text} (hfront : front <+: path)
    (hne : front ≠ path) (ms : Members) :
    ∃ inner, (Value.object (nest v path ms)).at? front = some (.object inner) := by
  induction path generalizing front ms with
  | nil => exact absurd (List.prefix_nil.mp hfront) hne
  | cons key path ih =>
    cases front with
    | nil => exact ⟨_, Value.at?_nil _⟩
    | cons k front =>
      obtain ⟨rfl, hrest⟩ := List.cons_prefix_cons.mp hfront
      have hfronts : front ≠ path := fun h => hne (by rw [h])
      have hpath : path ≠ [] := by
        rintro rfl
        exact hfronts (List.prefix_nil.mp hrest)
      rw [Value.at?_object_cons, nest_cons v k hpath, Members.get?_insert, if_pos rfl,
        Option.bind_some]
      exact ih hrest hfronts _

/-- What stands apart from the path of a value that is nested is left as it is. -/
theorem at?_nest_apart (v : Value) {other : List Text} (hpath : ¬path <+: other)
    (hother : ¬other <+: path) (ms : Members) :
    (Value.object (nest v path ms)).at? other = (Value.object ms).at? other := by
  induction path generalizing other ms with
  | nil => exact absurd List.nil_prefix hpath
  | cons key path ih =>
    cases other with
    | nil => exact absurd List.nil_prefix hother
    | cons k other =>
      by_cases hk : k = key
      · subst hk
        rw [List.cons_prefix_cons, and_iff_right rfl] at hpath hother
        have hne : path ≠ [] := by
          rintro rfl
          exact hpath List.nil_prefix
        have hne' : other ≠ [] := by
          rintro rfl
          exact hother List.nil_prefix
        rw [Value.at?_object_cons, nest_cons v k hne, Members.get?_insert, if_pos rfl,
          Option.bind_some, ih hpath hother, at?_membersAt ms k hne']
      · rw [Value.at?_object_cons, Value.at?_object_cons, get?_nest_of_ne hk]

/-! ### Named values -/

/-- The setting that a named value is for: its path, which is not empty, and the text of the
value. -/
def givenSetting? (start : Text) (named : Text × Text) : Option (List Text × Text) :=
  match settingPath? start named.1 with
  | none | some [] => none
  | some path => some (path, named.2)

/-- The settings that named values are for. -/
def givenSettings (start : Text) (env : Environment) : List (List Text × Text) :=
  env.filterMap (givenSetting? start)

/-- No path is another one or begins another one. -/
abbrev PathsApart (given : List (List Text × Text)) : Prop :=
  given.Pairwise fun s t => ¬s.1 <+: t.1 ∧ ¬t.1 <+: s.1

/-- The settings with one more of them. -/
def addSetting (asIs : List Text) (ms : Members) (s : List Text × Text) :
    Except Json.ReadFault Members := do
  return nest (← settingValue asIs s.1 s.2) s.1 ms

variable {start : Text} {asIs : List Text} {env : Environment}

theorem ne_nil_of_mem_givenSettings {s : List Text × Text} (h : s ∈ givenSettings start env) :
    s.1 ≠ [] := by
  obtain ⟨named, -, hs⟩ := List.mem_filterMap.mp h
  unfold givenSetting? at hs
  split at hs
  · cases hs
  · cases hs
  next path hpath _ =>
    cases hs
    exact hpath

theorem addNamed_eq (start : Text) (asIs : List Text) (ms : Members) (named : Text × Text) :
    addNamed start asIs ms named =
      match givenSetting? start named with
      | none => .ok ms
      | some s => addSetting asIs ms s := by
  unfold addNamed givenSetting?
  cases settingPath? start named.1 with
  | none => rfl
  | some path => cases path <;> rfl

theorem ofNamed_eq (env : Environment) (start : Text) (asIs : List Text) :
    ofNamed env start asIs =
      (givenSettings start env).foldlM (addSetting (asIs.map Text.lower)) [] := by
  rw [ofNamed]
  generalize ([] : Members) = ms
  induction env generalizing ms with
  | nil => rfl
  | cons named env ih =>
    rw [List.foldlM_cons, addNamed_eq, givenSettings, List.filterMap_cons]
    cases givenSetting? start named with
    | none => exact ih ms
    | some s =>
      rw [List.foldlM_cons]
      exact bind_congr ih

theorem exists_foldlM_addSetting_iff {given : List (List Text × Text)} :
    (∃ ms', given.foldlM (addSetting asIs) ms = .ok ms') ↔
      ∀ s ∈ given, ∃ v, settingValue asIs s.1 s.2 = .ok v := by
  induction given generalizing ms with
  | nil => exact iff_of_true ⟨ms, rfl⟩ (List.forall_mem_nil _)
  | cons s given ih =>
    rw [List.forall_mem_cons, List.foldlM_cons]
    cases hv : settingValue asIs s.1 s.2 with
    | error fault =>
      have hadd : addSetting asIs ms s = .error fault := by rw [addSetting, hv]; rfl
      rw [hadd]
      exact iff_of_false nofun nofun
    | ok v =>
      have hadd : addSetting asIs ms s = .ok (nest v s.1 ms) := by rw [addSetting, hv]; rfl
      rw [hadd]
      exact ih.trans (and_iff_right ⟨v, rfl⟩).symm

theorem exists_of_foldlM_addSetting_error {given : List (List Text × Text)} {fault : Json.ReadFault}
    (h : given.foldlM (addSetting asIs) ms = .error fault) :
    ∃ s ∈ given, settingValue asIs s.1 s.2 = .error fault := by
  induction given generalizing ms with
  | nil => cases h
  | cons s given ih =>
    rw [List.foldlM_cons, addSetting] at h
    cases hv : settingValue asIs s.1 s.2 with
    | error first =>
      rw [hv] at h
      cases h
      exact ⟨s, List.mem_cons_self, hv⟩
    | ok v =>
      rw [hv] at h
      obtain ⟨t, ht, hfault⟩ := ih h
      exact ⟨t, List.mem_cons_of_mem s ht, hfault⟩

/-- What becomes of some settings: each value stands at its path, objects lead there, and there is
nothing else. -/
structure Nests (asIs : List Text) (given : List (List Text × Text)) (v : Value) : Prop where
  stands : ∀ s ∈ given, ∃ w, settingValue asIs s.1 s.2 = .ok w ∧ v.at? s.1 = some w
  leads : ∀ s ∈ given, ∀ front, front <+: s.1 → front ≠ s.1 →
    ∃ inner, v.at? front = some (.object inner)
  only : ∀ path w, v.at? path = some w → path = [] ∨ ∃ s ∈ given, path <+: s.1 ∨ s.1 <+: path

namespace Nests

variable {given : List (List Text × Text)}

theorem nil (asIs : List Text) : Nests asIs [] (.object []) where
  stands := List.forall_mem_nil _
  leads := List.forall_mem_nil _
  only path w hw := by
    cases path with
    | nil => exact .inl rfl
    | cons key path => cases hw

/-- One more setting, whose path is apart from the others. -/
theorem nest {s : List Text × Text} {w : Value} (h : Nests asIs given (.object ms))
    (hne : s.1 ≠ []) (hapart : ∀ t ∈ given, ¬t.1 <+: s.1 ∧ ¬s.1 <+: t.1)
    (hw : settingValue asIs s.1 s.2 = .ok w) :
    Nests asIs (given ++ [s]) (.object (nest w s.1 ms)) where
  stands := by
    refine List.forall_mem_append.mpr ⟨fun t ht => ?_, List.forall_mem_singleton.mpr ?_⟩
    · rw [at?_nest_apart w (hapart t ht).2 (hapart t ht).1]
      exact h.stands t ht
    · have hself := at?_nest_append w hne ms []
      rw [List.append_nil, Value.at?_nil] at hself
      exact ⟨w, hw, hself⟩
  leads := by
    refine List.forall_mem_append.mpr ⟨fun t ht front hfront hproper => ?_,
      List.forall_mem_singleton.mpr fun front hfront hproper => at?_nest_front w hfront hproper ms⟩
    by_cases hlead : front <+: s.1
    · refine at?_nest_front w hlead ?_ ms
      rintro rfl
      exact (hapart t ht).2 hfront
    · rw [at?_nest_apart w (fun hs => (hapart t ht).2 (hs.trans hfront)) hlead]
      exact h.leads t ht front hfront hproper
  only path u hu := by
    by_cases hrelated : path <+: s.1 ∨ s.1 <+: path
    · exact .inr ⟨s, by simp, hrelated⟩
    · obtain ⟨hother, hpath⟩ := not_or.mp hrelated
      rw [at?_nest_apart w hpath hother] at hu
      obtain hroot | ⟨t, ht, hrelated⟩ := h.only path u hu
      · exact .inl hroot
      · exact .inr ⟨t, List.mem_append_left _ ht, hrelated⟩

/-- Settings one after the other, whose paths are apart. -/
theorem foldlM {todo : List (List Text × Text)} {ms' : Members} (h : Nests asIs given (.object ms))
    (hne : ∀ s ∈ todo, s.1 ≠ [])
    (hapart : PathsApart (given ++ todo))
    (hms' : todo.foldlM (addSetting asIs) ms = .ok ms') : Nests asIs (given ++ todo) (.object ms') := by
  induction todo generalizing given ms with
  | nil =>
    cases hms'
    rwa [List.append_nil]
  | cons s todo ih =>
    rw [List.foldlM_cons] at hms'
    obtain ⟨next, hnext, hms'⟩ := exists_of_bind_ok hms'
    obtain ⟨w, hw, ⟨⟩⟩ := exists_of_bind_ok hnext
    obtain ⟨hs, hne⟩ := List.forall_mem_cons.mp hne
    have hstep := h.nest hs
      (fun t ht => (List.pairwise_append.mp hapart).2.2 t ht s List.mem_cons_self) hw
    rw [List.append_cons] at hapart ⊢
    exact ih hstep hne hapart hms'

/-- In any order of the settings the same stands everywhere. -/
theorem agreeAt {others : List (List Text × Text)} {ns : Members}
    (h : Nests asIs given (.object ms)) (h' : Nests asIs others (.object ns))
    (hmem : ∀ s, s ∈ given ↔ s ∈ others) (path : List Text) :
    Value.AgreeAt (.object ms) (.object ns) path := by
  by_cases hunder : ∃ s ∈ given, s.1 <+: path
  · -- The path goes on from the path of a setting, where both have its value.
    obtain ⟨s, hs, rest, rfl⟩ := hunder
    obtain ⟨w, hw, hat⟩ := h.stands s hs
    obtain ⟨w', hw', hat'⟩ := h'.stands s ((hmem s).mp hs)
    cases hw.symm.trans hw'
    refine .inl ?_
    rw [Value.at?_append, Value.at?_append, hat, hat']
  · by_cases hover : ∃ s ∈ given, path <+: s.1
    · -- The path leads to the path of a setting.
      obtain ⟨s, hs, hfront⟩ := hover
      have hne : path ≠ s.1 := by
        rintro rfl
        exact hunder ⟨s, hs, List.prefix_rfl⟩
      obtain ⟨inner, hat⟩ := h.leads s hs path hfront hne
      obtain ⟨inner', hat'⟩ := h'.leads s ((hmem s).mp hs) path hfront hne
      exact .inr ⟨inner, inner', hat, hat'⟩
    · cases path with
      | nil => exact .inr ⟨ms, ns, Value.at?_nil _, Value.at?_nil _⟩
      | cons key path =>
        have hnone {given : List (List Text × Text)} {v : Value} (h : Nests asIs given v)
            (hunder : ¬∃ s ∈ given, s.1 <+: key :: path) (hover : ¬∃ s ∈ given, key :: path <+: s.1) :
            v.at? (key :: path) = none := by
          rw [Option.eq_none_iff_forall_ne_some]
          intro w hw
          obtain hroot | ⟨s, hs, hrelated⟩ := h.only _ w hw
          · cases hroot
          · exact hrelated.elim (fun hr => hover ⟨s, hs, hr⟩) fun hr => hunder ⟨s, hs, hr⟩
        refine .inl ((hnone h hunder hover).trans (hnone h' ?_ ?_).symm)
        · simpa only [hmem] using hunder
        · simpa only [hmem] using hover

theorem of_ofNamed (h : ofNamed env start asIs = .ok ms)
    (hapart : PathsApart (givenSettings start env)) :
    Nests (asIs.map Text.lower) (givenSettings start env) (.object ms) :=
  (nil _).foldlM (fun _ hs => ne_nil_of_mem_givenSettings hs) hapart (ofNamed_eq env start asIs ▸ h)

end Nests

/-- In any order, named values whose paths are apart give the same settings but for the order of
keys. -/
theorem exists_rearranged_of_perm {env' : Environment}
    (hapart : PathsApart (givenSettings start env))
    (hperm : env'.Perm env) (hms : ofNamed env start asIs = .ok ms) :
    ∃ ns, ofNamed env' start asIs = .ok ns ∧ (Value.object ms).Rearranged (.object ns) := by
  have hgiven : (givenSettings start env').Perm (givenSettings start env) :=
    hperm.filterMap (givenSetting? start)
  have hapart' : PathsApart (givenSettings start env') :=
    hgiven.symm.pairwise hapart fun h => ⟨h.2, h.1⟩
  have hvalues := exists_foldlM_addSetting_iff.mp ⟨ms, ofNamed_eq env start asIs ▸ hms⟩
  obtain ⟨ns, hns⟩ : ∃ ns, ofNamed env' start asIs = .ok ns := by
    rw [ofNamed_eq, exists_foldlM_addSetting_iff]
    exact fun s hs => hvalues s (hgiven.mem_iff.mp hs)
  refine ⟨ns, hns, (keysDiffer_ofNamed hms).rearranged (keysDiffer_ofNamed hns) ?_⟩
  exact (Nests.of_ofNamed hms hapart).agreeAt (.of_ofNamed hns hapart') fun s => hgiven.mem_iff.symm

/-- Named values of which no path begins another one give settings unless a value is refused, which
it is for an integer with too many digits only. In the settings each value stands at its path, as its
text or as what the text stands for, and there is nothing else but the objects that lead there. The
order of the named values makes no difference but to the order of keys. -/
theorem ofNamed_nests
    (hapart : PathsApart (givenSettings start env)) :
    ((∃ ms, ofNamed env start asIs = .ok ms) ↔
        ∀ s ∈ givenSettings start env, Text.join "." s.1 ∉ asIs.map Text.lower →
          ∃ v, scalar s.2 = .ok v) ∧
      (∀ fault, ofNamed env start asIs = .error fault → fault = .tooManyDigits ∧
        ∃ s ∈ givenSettings start env, Json.decode s.2.strip = .error .tooManyDigits) ∧
      ∀ ms, ofNamed env start asIs = .ok ms →
        (Value.object ms).KeysDiffer ∧
        (∀ s ∈ givenSettings start env,
          if Text.join "." s.1 ∈ asIs.map Text.lower then (Value.object ms).at? s.1 = some (.str s.2)
          else ∃ v, scalar s.2 = .ok v ∧ (Value.object ms).at? s.1 = some v) ∧
        (∀ path v, (Value.object ms).at? path = some v →
          (∃ s ∈ givenSettings start env, s.1 <+: path) ∨
            (∃ inner, v = .object inner) ∧
              (path = [] ∨ ∃ s ∈ givenSettings start env, path <+: s.1)) ∧
        ∀ env', env'.Perm env → ∃ ns, ofNamed env' start asIs = .ok ns ∧
          (Value.object ms).Rearranged (.object ns) := by
  refine ⟨?_, fun fault hfault => ?_, fun ms hms => ?_⟩
  · rw [ofNamed_eq, exists_foldlM_addSetting_iff]
    refine forall₂_congr fun s _ => ?_
    unfold settingValue
    split
    next hraw => exact iff_of_true ⟨_, rfl⟩ fun hnot => absurd hraw hnot
    next hraw => exact ⟨fun h _ => h, fun h => h hraw⟩
  · rw [ofNamed_eq] at hfault
    obtain ⟨s, hs, hvalue⟩ := exists_of_foldlM_addSetting_error hfault
    unfold settingValue at hvalue
    split at hvalue
    · cases hvalue
    · obtain ⟨hfault, hdecode⟩ := decode_of_scalar_error hvalue
      exact ⟨hfault, s, hs, hdecode⟩
  · have hnests := Nests.of_ofNamed hms hapart
    refine ⟨keysDiffer_ofNamed hms, fun s hs => ?_, fun path v hv => ?_, fun env' hperm => ?_⟩
    · obtain ⟨w, hw, hat⟩ := hnests.stands s hs
      unfold settingValue at hw
      split at hw
      next hraw =>
        cases hw
        rwa [if_pos hraw]
      next hraw =>
        rw [if_neg hraw]
        exact ⟨w, hw, hat⟩
    · by_cases hunder : ∃ s ∈ givenSettings start env, s.1 <+: path
      · exact .inl hunder
      refine .inr ?_
      obtain rfl | ⟨s, hs, hfront | hunder'⟩ := hnests.only path v hv
      · rw [Value.at?_nil] at hv
        cases hv
        exact ⟨⟨ms, rfl⟩, .inl rfl⟩
      · have hne : path ≠ s.1 := by
          rintro rfl
          exact hunder ⟨s, hs, List.prefix_rfl⟩
        obtain ⟨inner, hinner⟩ := hnests.leads s hs path hfront hne
        cases hv.symm.trans hinner
        exact ⟨⟨inner, rfl⟩, .inr ⟨s, hs, hfront⟩⟩
      · exact absurd ⟨s, hs, hunder'⟩ hunder
    · exact exists_rearranged_of_perm hapart hperm hms

/-- A value kept as it is, an object and a name without the prefix; backwards, the keys come in
another order. -/
theorem ofNamed_nests_backwards :
    let env : Environment := [("APP__DB__Port", "5432"), ("HOME", "/"), ("APP__Name", "x"),
      ("APP__db__options", "\x7b\x7d")]
    let ms : Members :=
      [("db", .object [("port", .str "5432"), ("options", .object [])]), ("name", .str "x")]
    let ns : Members :=
      [("db", .object [("options", .object []), ("port", .str "5432")]), ("name", .str "x")]
    PathsApart (givenSettings "APP__" env) ∧
      ofNamed env "APP__" ["DB.port"] = .ok ms ∧
      (Value.object ms).at? ["db", "port"] = some (.str "5432") ∧
      (Value.object ms).at? ["db", "options"] = some (.object []) ∧
      ofNamed env.reverse "APP__" ["DB.port"] = .ok ns ∧
      (Value.object ms).Rearranged (.object ns) := by
  intro env ms ns
  have hapart : PathsApart (givenSettings "APP__" env) := by decide
  have hms : ofNamed env "APP__" ["DB.port"] = .ok ms := rfl
  obtain ⟨-, hstands, -, hperm⟩ := (ofNamed_nests hapart).2.2 ms hms
  have hport := hstands (["db", "port"], "5432") (by decide)
  rw [if_pos (by decide)] at hport
  have hoptions := hstands (["db", "options"], "\x7b\x7d") (by decide)
  rw [if_neg (by decide)] at hoptions
  obtain ⟨v, hv, hat⟩ := hoptions
  cases (show scalar "\x7b\x7d" = .ok (.object []) from rfl).symm.trans hv
  have hns : ofNamed env.reverse "APP__" ["DB.port"] = .ok ns := rfl
  obtain ⟨_, hns', hrearranged⟩ := hperm env.reverse (List.reverse_perm env)
  cases hns.symm.trans hns'
  exact ⟨hapart, hms, hport, hat, hns, hrearranged⟩

/-- A value with too many digits is not kept as it is, and there are no settings. -/
theorem not_ofNamed_great :
    ¬∀ (env : Environment) (start : Text) (asIs : List Text),
      PathsApart (givenSettings start env) →
        ∃ ms, ofNamed env start asIs = .ok ms := by
  intro h
  obtain ⟨raw, hraw⟩ : ∃ raw, scalar raw = .error .tooManyDigits := by
    refine ⟨Text.ofInt ((10 ^ Json.digitLimit : Nat) : Int), ?_⟩
    rw [scalar_ofInt, Int.natAbs_natCast, if_neg (Nat.lt_irrefl _)]
  obtain ⟨ms, hms⟩ := h [("a", raw)] [] [] (List.pairwise_singleton _ _)
  have hvalues := exists_foldlM_addSetting_iff.mp ⟨ms, ofNamed_eq _ _ _ ▸ hms⟩
  obtain ⟨v, hv⟩ := hvalues (["a"], raw) List.mem_cons_self
  rw [settingValue, List.map_nil, if_neg List.not_mem_nil, hraw] at hv
  cases hv

end Settings

end DocStore
