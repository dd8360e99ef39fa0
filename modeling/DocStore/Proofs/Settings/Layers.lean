import DocStore.Proofs.Json.Decoded
import DocStore.Proofs.Settings.Merge

/-!
Layers of settings. Wherever a layer is taken from, no object in it has a key
twice. So the merged settings neither lose nor invent anything: what is no
object is at a path of theirs exactly when a layer gave it there last.
-/

namespace DocStore

namespace Json

theorem closed_keysDiffer : Closed Value.KeysDiffer where
  word := by
    intro p hp
    have hwords : ∀ p ∈ words, p.2.members?.isNone = true := by decide
    exact .atom (Option.isNone_iff_eq_none.mp (hwords p hp))
  int _ := .atom rfl
  float _ := .atom rfl
  str _ := .atom rfl
  list _ := .atom rfl
  object := .object

end Json

namespace Settings

variable {ms : Members} {v : Value}

theorem keysDiffer_nil : (Value.object []).KeysDiffer := .object .nil (List.forall_mem_nil _)

/-- What stands at another key than the first one is left by a value that is nested. -/
theorem get?_nest_of_ne {key first : Text} (h : key ≠ first) (v : Value) (path : List Text)
    (ms : Members) : (nest v (first :: path) ms).get? key = ms.get? key := by
  cases path with
  | nil => rw [nest, Members.get?_insert, if_neg h]
  | cons next path =>
    unfold nest
    split <;> rw [Members.get?_insert, if_neg h]

/-! ### Where layers are taken from -/

theorem keysDiffer_canonicalNumber {t raw : Text} (h : canonicalNumber t raw = .ok v) :
    v.KeysDiffer := by
  unfold canonicalNumber at h
  split at h
  next hdecode =>
    cases h
    split
    · exact Json.closed_keysDiffer.of_decode hdecode
    · exact .atom rfl
  next =>
    cases h
    exact .atom rfl
  next => cases h

theorem keysDiffer_scalar {raw : Text} (h : scalar raw = .ok v) : v.KeysDiffer := by
  unfold scalar at h
  dsimp only at h
  split at h
  · cases h
    exact .atom rfl
  split at h
  · cases h
    exact .atom rfl
  split at h
  · cases h
    exact .atom rfl
  split at h
  · split at h
    next hdecode =>
      cases h
      exact Json.closed_keysDiffer.of_decode hdecode
    next =>
      cases h
      exact .atom rfl
    next => cases h
  split at h
  · exact keysDiffer_canonicalNumber h
  · cases h
    exact .atom rfl

theorem keysDiffer_settingValue {asIs path : List Text} {raw : Text}
    (h : settingValue asIs path raw = .ok v) : v.KeysDiffer := by
  unfold settingValue at h
  split at h
  · cases h
    exact .atom rfl
  · exact keysDiffer_scalar h

theorem keysDiffer_nest (hv : v.KeysDiffer) (path : List Text) (hms : (Value.object ms).KeysDiffer) :
    (Value.object (nest v path ms)).KeysDiffer := by
  induction path generalizing ms with
  | nil => exact hms
  | cons key path ih =>
    cases path with
    | nil => exact hms.insert key hv
    | cons next path =>
      unfold nest
      split
      next inner hinner => exact hms.insert key (ih (hms.of_get? hinner))
      next => exact hms.insert key (ih keysDiffer_nil)

theorem keysDiffer_addNamed {start : Text} {asIs : List Text} {named : Text × Text} {ms' : Members}
    (hms : (Value.object ms).KeysDiffer) (h : addNamed start asIs ms named = .ok ms') :
    (Value.object ms').KeysDiffer := by
  unfold addNamed at h
  split at h
  · cases h
    exact hms
  · cases h
    exact hms
  · obtain ⟨v, hv, ⟨⟩⟩ := exists_of_bind_ok h
    exact keysDiffer_nest (keysDiffer_settingValue hv) _ hms

theorem keysDiffer_ofNamed {env : Environment} {start : Text} {asIs : List Text}
    (h : ofNamed env start asIs = .ok ms) : (Value.object ms).KeysDiffer :=
  foldlM_preserves (P := fun ms => (Value.object ms).KeysDiffer)
    (fun _ _ _ _ hms h => keysDiffer_addNamed hms h) keysDiffer_nil h

namespace Layers

theorem keysDiffer_named {env : Environment} {start : Text} {asIs : List Text}
    (h : named env start asIs = .ok ms) : (Value.object ms).KeysDiffer := by
  unfold named at h
  split at h
  next hms =>
    cases h
    exact keysDiffer_ofNamed hms
  next => cases h

theorem keysDiffer_readObject {path : Text} {octets : List UInt8}
    (h : readObject path octets = .ok ms) : (Value.object ms).KeysDiffer := by
  unfold readObject at h
  split at h
  · cases h
  · split at h
    next => cases h
    next => cases h
    next hdecode =>
      cases h
      exact Json.closed_keysDiffer.of_decode hdecode
    next => cases h

/-- Layers to which settings were given, one after another. An object of a caller has no key twice;
what is none, and a file that is not there, give nothing. -/
inductive Given : List Members → Layers → Prop
  | none : Given [] {}
  | object {given layer s s' name} (h : Given given s) (hlayer : (Value.object layer).KeysDiffer)
      (hadd : s.addObject (.object layer) name = .ok s') : Given (given ++ [layer]) s'
  | jsonFile {given layer s s' sources path required octets} (h : Given given s)
      (hfile : file? sources.files path = some octets) (hlayer : readObject path octets = .ok layer)
      (hadd : s.addJsonFile sources path required = .ok s') : Given (given ++ [layer]) s'
  | dotenv {given layer s s' sources path start required asIs octets t} (h : Given given s)
      (hfile : file? sources.files path = some octets) (ht : Text.ofUtf8? octets = some t)
      (hlayer : named (Dotenv.values sources.environment (unixLines t)) start asIs = .ok layer)
      (hadd : s.addDotenv sources path start required asIs = .ok s') : Given (given ++ [layer]) s'
  | environment {given layer s s' sources start asIs} (h : Given given s)
      (hlayer : named sources.environment start asIs = .ok layer)
      (hadd : s.addEnvironment sources start asIs = .ok s') : Given (given ++ [layer]) s'
  | nothing {given s s' name} (h : Given given s) (hadd : s.addObject .null name = .ok s') :
      Given given s'
  | missing {given s s' sources path required read} (h : Given given s)
      (hfile : file? sources.files path = .none)
      (hadd : s.addFile sources path required read = .ok s') : Given given s'

variable {s s' : Layers} {given : List Members}

/-- An empty layer changes nothing, so it does not matter that it is not added. -/
theorem merged_push (s : Layers) (name : Text) (layer : Members) :
    (s.push name layer).merged = merge s.merged layer := by
  unfold merged push
  cases layer with
  | nil => simp [merge]
  | cons m layer => simp

theorem addFile_eq {sources : Sources} {path : Text} {required : Bool} {octets : List UInt8}
    {read : List UInt8 → Except Misuse Layers} (hfile : file? sources.files path = some octets)
    (hadd : s.addFile sources path required read = .ok s') : read octets = .ok s' := by
  unfold addFile at hadd
  split at hadd
  · cases hadd
  · rwa [hfile] at hadd

/-- What was added is merged in order, and no object in it has a key twice. -/
theorem Given.merged (h : Given given s) :
    s.merged = given.foldl merge [] ∧ ∀ l ∈ given, (Value.object l).KeysDiffer := by
  have hpushed {given : List Members} {s : Layers} {ms : Members} (name : Text)
      (ih : s.merged = given.foldl merge [] ∧ ∀ l ∈ given, (Value.object l).KeysDiffer)
      (hms : (Value.object ms).KeysDiffer) :
      (s.push name ms).merged = (given ++ [ms]).foldl merge [] ∧
        ∀ l ∈ given ++ [ms], (Value.object l).KeysDiffer := by
    refine ⟨?_, List.forall_mem_append.mpr ⟨ih.2, List.forall_mem_singleton.mpr hms⟩⟩
    rw [merged_push, ih.1, List.foldl_append, List.foldl_cons, List.foldl_nil]
  induction h with
  | none => exact ⟨rfl, List.forall_mem_nil _⟩
  | @object given layer s s' name h hlayer hadd ih =>
    cases layer with
    | nil =>
      cases hadd
      exact hpushed name ih hlayer
    | cons m layer =>
      cases hadd
      exact hpushed name ih hlayer
  | jsonFile h hfile hlayer hadd ih =>
    have hread := addFile_eq hfile hadd
    rw [hlayer] at hread
    cases hread
    exact hpushed _ ih (keysDiffer_readObject hlayer)
  | dotenv h hfile ht hlayer hadd ih =>
    have hread := addFile_eq hfile hadd
    rw [ht] at hread
    dsimp only at hread
    rw [hlayer] at hread
    cases hread
    exact hpushed _ ih (keysDiffer_named hlayer)
  | environment h hlayer hadd ih =>
    unfold addEnvironment at hadd
    rw [hlayer] at hadd
    cases hadd
    exact hpushed _ ih (keysDiffer_named hlayer)
  | nothing h hadd ih =>
    cases hadd
    exact ih
  | missing h hfile hadd ih =>
    unfold addFile at hadd
    rw [hfile] at hadd
    split at hadd
    · cases hadd
    · dsimp only at hadd
      split at hadd
      · cases hadd
      · cases hadd
        exact ih

/-- The merged settings neither lose nor invent anything, an object laid over them counting as the
last layer: what is no object is at a path of theirs exactly when it was given there last. -/
theorem Given.build_iff_lastGiven (h : Given given s) {overrides : Option Members}
    (hoverrides : ∀ o ∈ overrides, (Value.object o).KeysDiffer) :
    ∃ ms, s.build ((overrides.map Value.object).getD .null) = .ok ms ∧
      ∀ path v, v.members? = .none →
        ((Value.object ms).at? path = some v ↔
          LastGiven (given ++ overrides.toList) path v) := by
  obtain ⟨hmerged, hgiven⟩ := h.merged
  have hlayers : ∀ l ∈ given ++ overrides.toList, (Value.object l).KeysDiffer :=
    List.forall_mem_append.mpr ⟨hgiven, fun o ho => hoverrides o (Option.mem_toList.mp ho)⟩
  refine ⟨(given ++ overrides.toList).foldl merge [], ?_, fun path v hv => ?_⟩
  · rw [List.foldl_append, ← hmerged]
    cases overrides with
    | none => rfl
    | some o =>
      cases o with
      | nil => simp [build, Value.isTruthy, merge]
      | cons m o => rfl
  · rw [at?_foldl_merge hlayers hv]
    refine or_iff_left ?_
    rintro ⟨hnone, -⟩
    -- Nothing but the empty object is in it.
    cases path with
    | nil =>
      cases hnone
      cases hv
    | cons key path => cases hnone

/-- A number takes the place of an object, and an object that of the number; what was given beside
them in the first layer is still there. -/
theorem build_iff_lastGiven_replaced :
    let first : Members := [("a", .object [("x", .int 1)]), ("b", .int 2)]
    let second : Members := [("a", .int 3)]
    let overrides : Members := [("a", .object [("y", .int 4)])]
    ∃ s, Given [first, second] s ∧ (∀ o ∈ some overrides, (Value.object o).KeysDiffer) ∧
      ∃ ms, s.build (.object overrides) = .ok ms ∧
        (Value.object ms).at? ["b"] = some (.int 2) ∧
        (Value.object ms).at? ["a", "y"] = some (.int 4) := by
  intro first second overrides
  have hone (key : Text) {v : Value} (hv : v.KeysDiffer) : (Value.object [(key, v)]).KeysDiffer :=
    keysDiffer_nil.insert key hv
  have hfirst : Given [first] (({} : Layers).push "first" first) :=
    .object .none ((hone "a" (hone "x" (.atom rfl))).insert "b" (.atom rfl)) rfl
  have hsecond : Given [first, second] ((({} : Layers).push "first" first).push "second" second) :=
    .object hfirst (hone "a" (.atom rfl)) rfl
  have hoverrides : ∀ o ∈ some overrides, (Value.object o).KeysDiffer := by
    rintro _ ⟨⟩
    exact hone "a" (hone "y" (.atom rfl))
  obtain ⟨ms, hms, hiff⟩ := hsecond.build_iff_lastGiven hoverrides
  refine ⟨_, hsecond, hoverrides, ms, hms, (hiff _ _ rfl).mpr ?_, (hiff _ _ rfl).mpr ?_⟩
  · have huncovered (v : Value) : ¬(Value.object [("a", v)]).Covers ["b"] := by
      rw [Value.covers_cons_iff]
      rintro ⟨w, hw, -⟩
      cases hw
    refine ⟨[], first, [second, overrides], rfl, rfl, ?_⟩
    simp only [List.forall_mem_cons]
    exact ⟨huncovered _, huncovered _, List.forall_mem_nil _⟩
  · exact ⟨[first, second], overrides, [], rfl, rfl, List.forall_mem_nil _⟩

end Layers

end Settings

end DocStore
