import DocStore.Proofs.Settings.Layers
import DocStore.Settings.Connection

/-!
The options that are texts, from the environment to the connection. What one name
of the environment gives to such an option is kept where it is nested, merged and
checked, so the option is the value of the name as it stands.
-/

namespace DocStore

/-- Two checks succeed together. -/
theorem Checked.both_eq_ok {α β : Type} {a : Checked α} {b : Checked β} {x : α} {y : β} :
    Checked.both a b = .ok (x, y) ↔ a = .ok x ∧ b = .ok y := by
  cases a with
  | error issues => cases b <;> simp [both]
  | ok x' => cases b <;> simp [both]

namespace ConnectionOptions

/-- The options that are texts, by the names that they have in settings. -/
def texts (o : ConnectionOptions) : List (Text × Option Text) :=
  [("host", some o.host), ("dbname", some o.database), ("charset", o.charset),
    ("username", o.user), ("password", o.password)]

/-- A text that is given for an option passes its check unchanged. -/
theorem texts_of_ofMembers {ms : Members} {o : ConnectionOptions} (h : ofMembers ms = .ok o)
    {field r : Text} (hfield : field ∈ textFields) (hr : ms.get? field = some (.str r)) :
    o.texts.lookup field = some (some r) := by
  obtain ⟨⟨engine, host, port, database, charset, user, password, extra⟩, hread, ⟨⟩⟩ :=
    exists_of_bind_ok h
  simp only [Checked.both_eq_ok] at hread
  obtain ⟨-, hhost, -, hdatabase, hcharset, huser, hpassword, -⟩ := hread
  simp only [textFields, List.mem_cons, List.not_mem_nil, or_false] at hfield
  obtain rfl | rfl | rfl | rfl | rfl := hfield
  · rw [Field.withDefault, hr] at hhost
    cases hhost
    rfl
  · rw [Field.required, hr] at hdatabase
    cases hdatabase
    rfl
  · rw [Field.optional, Field.get, hr] at hcharset
    cases hcharset
    rfl
  · rw [Field.optional, Field.get, hr] at huser
    cases huser
    rfl
  · rw [Field.optional, Field.get, hr] at hpassword
    cases hpassword
    rfl

end ConnectionOptions

namespace Settings

variable {ms ms' : Members} {key : Text} {path : List Text} {v : Value}

/-! ### One name among others -/

/-- A name whose path begins with another key leaves what stands at a key. -/
theorem get?_addNamed_of_ne {start : Text} {asIs : List Text} {named : Text × Text}
    (hother : ∀ path, settingPath? start named.1 ≠ some (key :: path))
    (h : addNamed start asIs ms named = .ok ms') : ms'.get? key = ms.get? key := by
  unfold addNamed at h
  split at h
  · cases h
    rfl
  · cases h
    rfl
  next path hpath hnamed =>
    obtain ⟨w, -, ⟨⟩⟩ := exists_of_bind_ok h
    cases path with
    | nil => exact absurd rfl hpath
    | cons first path =>
      refine get?_nest_of_ne ?_ w path ms
      rintro rfl
      exact hother path hnamed

/-- A name for a key that is kept as it is puts its text there. -/
theorem get?_addNamed_of_asIs {start name r : Text} {asIs : List Text}
    (hname : settingPath? start name = some [key]) (hkey : key ∈ asIs)
    (h : addNamed start asIs ms (name, r) = .ok ms') : ms'.get? key = some (.str r) := by
  unfold addNamed at h
  rw [hname] at h
  obtain ⟨w, hw, ⟨⟩⟩ := exists_of_bind_ok h
  have hjoin : Text.join "." [key] = key := by simp [Text.join]
  rw [settingValue, hjoin, if_pos hkey] at hw
  cases hw
  rw [nest, Members.get?_insert, if_pos rfl]

/-- In named values, the text of one that is for a key comes to stand there, unless a later one is
for the key or for something under it. -/
theorem get?_ofNamed {before after : Environment} {start name r : Text} {asIs : List Text}
    (hname : settingPath? start name = some [key]) (hkey : key ∈ asIs.map Text.lower)
    (hlater : ∀ other ∈ after, ∀ path, settingPath? start other.1 ≠ some (key :: path))
    (h : ofNamed (before ++ (name, r) :: after) start asIs = .ok ms) :
    ms.get? key = some (.str r) := by
  rw [ofNamed, List.foldlM_append] at h
  obtain ⟨earlier, -, h⟩ := exists_of_bind_ok h
  rw [List.foldlM_cons] at h
  obtain ⟨set, hset, h⟩ := exists_of_bind_ok h
  refine foldlM_preserves (P := fun ms : Members => ms.get? key = some (.str r)) ?_
    (get?_addNamed_of_asIs hname hkey hset) h
  intro other hother ms ms' hms hadd
  rw [get?_addNamed_of_ne (hlater other hother) hadd, hms]

/-! ### One layer among others -/

/-- A layer without a key leaves what stands there. -/
theorem get?_merge_of_get?_eq_none {layer : Members} (h : layer.get? key = none) (base : Members) :
    (merge base layer).get? key = base.get? key := by
  induction layer generalizing base with
  | nil => rw [merge]
  | cons m layer ih =>
    obtain ⟨k, w⟩ := m
    rw [Members.get?_cons] at h
    have hne : key ≠ k := by
      rintro rfl
      rw [if_pos rfl] at h
      cases h
    rw [if_neg hne] at h
    rw [merge_cons, ih h, Members.get?_insert, if_neg hne]

namespace Layers

variable {s s' : Layers}

/-- A text that the environment gives for a key stands there once the environment was added. -/
theorem get?_addEnvironment {sources : Sources} {start r : Text} {asIs : List Text}
    (henv : ∀ layer, ofNamed sources.environment start asIs = .ok layer →
      layer.get? key = some (.str r))
    (h : s.addEnvironment sources start asIs = .ok s') : s'.merged.get? key = some (.str r) := by
  obtain ⟨layer, hlayer, ⟨⟩⟩ := exists_of_bind_ok h
  have hnodup := (keysDiffer_named hlayer).nodup
  unfold named at hlayer
  split at hlayer
  next hnamed =>
    cases hlayer
    rw [merged_push, get?_merge hnodup, henv _ hnamed, Option.map_some, mergedValue_of_atom rfl]
    rfl
  next => cases hlayer

/-- An object without a key, laid over the layers, leaves what stands there. -/
theorem get?_build {overrides : Value}
    (hoverrides : ∀ os, Members.ofValue overrides = .ok os → os.get? key = none)
    (h : s.build overrides = .ok ms) : ms.get? key = s.merged.get? key := by
  unfold build at h
  split at h
  · obtain ⟨os, hos, ⟨⟩⟩ := exists_of_bind_ok h
    exact get?_merge_of_get?_eq_none (hoverrides os hos) _
  · cases h
    rfl

end Layers

/-- Of the layers of a connection, the environment is the last one before the object over them. -/
theorem exists_of_connectionMembers_ok {sources : Sources} {places : Places}
    (h : connectionMembers sources places = .ok ms) :
    ∃ files layers : Layers,
      files.addEnvironment sources places.start ConnectionOptions.textFields = .ok layers ∧
        layers.build places.overrides = .ok ms := by
  unfold connectionMembers at h
  dsimp only at h
  have hlast {files : Except Misuse Layers}
      (h : (files >>= fun s => s.addEnvironment sources places.start ConnectionOptions.textFields >>=
        fun s => s.build places.overrides) = .ok ms) :
      ∃ files layers : Layers,
        files.addEnvironment sources places.start ConnectionOptions.textFields = .ok layers ∧
          layers.build places.overrides = .ok ms := by
    obtain ⟨files, -, h⟩ := exists_of_bind_ok h
    obtain ⟨layers, hlayers, h⟩ := exists_of_bind_ok h
    exact ⟨files, layers, hlayers, h⟩
  split at h
  · split at h <;> exact hlast h
  · obtain ⟨fromJson, -, h⟩ := exists_of_bind_ok h
    split at h <;> exact hlast h

/-- An option that is a text is the value of the environment's name for it as it stands, whatever
the files and the other names give: no later name may be for it or for something under it, and the
object laid over the layers may not have it. -/
theorem connection_keepsText {sources : Sources} {places : Places} {o : ConnectionOptions}
    {field name r : Text} {before after : Environment} (hfield : field ∈ ConnectionOptions.textFields)
    (henv : sources.environment = before ++ (name, r) :: after)
    (hname : settingPath? places.start name = some [field])
    (hlater : ∀ other ∈ after, ∀ path, settingPath? places.start other.1 ≠ some (field :: path))
    (hoverrides : ∀ os, Members.ofValue places.overrides = .ok os → os.get? field = none)
    (hok : connection sources places = .ok o) : o.texts.lookup field = some (some r) := by
  unfold connection at hok
  split at hok
  next => cases hok
  next ms hms =>
    have hgiven : ms.get? field = some (.str r) := by
      obtain ⟨files, layers, hlayers, hbuild⟩ := exists_of_connectionMembers_ok hms
      rw [Layers.get?_build hoverrides hbuild]
      refine Layers.get?_addEnvironment (fun layer hlayer => ?_) hlayers
      rw [henv] at hlayer
      have hasIs : ConnectionOptions.textFields.map Text.lower = ConnectionOptions.textFields := by
        decide
      exact get?_ofNamed hname (hasIs ▸ hfield) hlater hlayer
    unfold ConnectionOptions.ofValue at hok
    rw [show Members.ofValue (.object ms) = .ok ms from rfl] at hok
    dsimp only at hok
    split at hok
    next => cases hok
    next options hoptions =>
      cases hok
      exact ConnectionOptions.texts_of_ofMembers hoptions hfield hgiven

/-- A password that writes null stays a text, though a name before it is for something under it and
another name is like it but for the prefix. -/
theorem connection_keepsText_nullWord :
    let sources : Sources := {
      environment := [("MONGO_HYBRID__CONNECTION", "sqlite"), ("MONGO_HYBRID__password__x", "a"),
        ("MONGO_HYBRID__Password", " null "), ("PASSWORD", "b"), ("MONGO_HYBRID__DBNAME", "[1]")] }
    let places : Places := { overrides := .object [("host", .str "c")] }
    ∃ o, connection sources places = .ok o ∧
      o.texts.lookup ("password" : Text) = some (some (" null " : Text)) := by
  intro sources places
  have hmembers : connectionMembers sources places =
      .ok (merge (merge [] [("connection", .str "sqlite"), ("password", .str " null "),
        ("dbname", .str "[1]")]) [("host", .str "c")]) := rfl
  have hok : connection sources places = .ok
      { engine := .sqlite, host := "c", database := "[1]", password := some (" null " : Text) } := by
    unfold connection
    rw [hmembers, merge_cons, merge_cons, merge_cons, merge, merge_cons, merge]
    rfl
  have hlater : ∀ other ∈ sources.environment.drop 3, ∀ path,
      settingPath? places.start other.1 ≠ some (("password" : Text) :: path) := by
    refine List.forall_mem_cons.mpr ⟨?_, List.forall_mem_singleton.mpr ?_⟩
    · rintro path ⟨⟩
    · rintro path ⟨⟩
  have henv : sources.environment = sources.environment.take 2 ++
      (("MONGO_HYBRID__Password" : Text), (" null " : Text)) :: sources.environment.drop 3 := rfl
  refine ⟨_, hok, connection_keepsText (by decide) henv rfl hlater ?_ hok⟩
  rintro os ⟨⟩
  rfl

end Settings

end DocStore
