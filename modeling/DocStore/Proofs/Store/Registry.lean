import DocStore.Proofs.Store.Drain
import DocStore.Proofs.Store.Keeps
import DocStore.Store.Verb

/-!
The collections that are handed out. Only making, dropping and closing change
which collections are handed out again; searching and writing leave them as
they are, so that a collection that was obtained once is obtained again without
anything being done.
-/

namespace DocStore

namespace Action

variable {α β : Type}

theorem keepsRegistry_ensureTable (c : Nat) : KeepsRegistry (ensureTable c) := by
  unfold ensureTable
  refine (keeps_collection c).registry.bind fun x => ?_
  split
  · refine (keeps_makeTable _).registry.bind fun _ => ?_
    exact .modify_bind (fun _ => rfl) (.modify fun _ => rfl)
  · exact .pure _

theorem keepsRegistry_compile (c : Nat) (f : Filter) (options : FindOptions) :
    KeepsRegistry (compile c f options) := by
  unfold compile
  refine (keeps_collection c).registry.bind fun x => ?_
  split
  · exact (keeps_inDialect _).registry.bind fun _ => (Keeps.ofMisuse _).bind fun _ => .pure _
  · refine (keeps_inDialect _).registry.bind fun _ => ?_
    split
    · exact (Keeps.ofMisuse _).bind fun _ => .pure _
    · exact .pure _

/-! ### Reading -/

theorem keepsRegistry_failAtRow (cursor : Nat) (fault : Misuse) :
    KeepsRegistry (failAtRow cursor fault : Action α) :=
  (keeps_record _).registry.bind fun _ => .throw _

theorem keepsRegistry_takeRow (q : Query) (cursor skip : Nat) (row : Row) :
    KeepsRegistry (takeRow q cursor skip row) := by
  unfold takeRow
  refine (keeps_record _).registry.bind fun _ => ?_
  split
  · exact keepsRegistry_failAtRow ..
  · exact .pure _
  · split
    · exact .pure _
    · split
      · exact keepsRegistry_failAtRow ..
      · exact .pure _

theorem keepsRegistry_nextAmong (d : Documents) (cursor : Nat) (refusal : Option Refusal)
    (skip : Nat) (rows : List Row) : KeepsRegistry (nextAmong d cursor refusal skip rows) := by
  induction rows generalizing skip with
  | nil =>
    unfold nextAmong
    exact (keeps_endRows ..).registry.bind fun _ => .pure _
  | cons row rows ih =>
    unfold nextAmong
    refine (keepsRegistry_takeRow ..).bind fun p => ?_
    split
    · exact ih _
    · exact .pure _

theorem keepsRegistry_allAmong (q : Query) (cursor : Nat) (refusal : Option Refusal) (skip : Nat)
    (left : Option Nat) (rows : List Row) :
    KeepsRegistry (allAmong q cursor refusal skip left rows) := by
  induction rows generalizing skip left with
  | nil =>
    by_cases hleft : left = some 0
    · rw [hleft, allAmong_full]
      exact (keeps_record _).registry.bind fun _ => .pure _
    · rw [allAmong_nil _ _ _ _ hleft]
      exact (keeps_endRows ..).registry.bind fun _ => .pure _
  | cons row rows ih =>
    by_cases hleft : left = some 0
    · rw [hleft, allAmong_full]
      exact (keeps_record _).registry.bind fun _ => .pure _
    · rw [allAmong_cons _ _ _ _ hleft]
      refine (keepsRegistry_takeRow ..).bind fun p => ?_
      split
      · exact ih _ _
      · exact (ih _ _).bind fun _ => .pure _

theorem keepsRegistry_opened (d : Documents) : KeepsRegistry d.opened := by
  unfold Documents.opened
  split
  · exact (keepsRegistry_ensureTable _).bind fun _ => (keeps_send _).registry.bind fun _ => .pure _
  · exact .pure _

theorem keepsRegistry_find (c : Nat) (f : Filter) (options : FindOptions) :
    KeepsRegistry (find c f options) := by
  refine (keepsRegistry_compile c f options).bind fun q => (keepsRegistry_opened _).bind fun d => ?_
  split
  · exact keepsRegistry_allAmong ..
  · exact .pure _

theorem keepsRegistry_findOne (c : Nat) (f : Filter) (options : FindOptions) :
    KeepsRegistry (findOne c f options) := by
  refine (keepsRegistry_compile c f _).bind fun q => ?_
  have hnext : KeepsRegistry q.documents.next := by
    refine (keepsRegistry_opened _).bind fun d => ?_
    split
    · split
      · exact (keeps_record _).registry.bind fun _ => .pure _
      · exact keepsRegistry_nextAmong ..
    · exact .pure _
  refine hnext.bind fun p => ?_
  split
  · exact .pure _
  · unfold Documents.abandon
    split
    · exact (keeps_record _).registry.bind fun _ => .pure _
    · exact .pure _

/-! ### Writing -/

theorem keepsRegistry_writeOver (c : Nat) (id : Value) (ms : Members) :
    KeepsRegistry (writeOver c id ms) := by
  unfold writeOver
  exact (keeps_collection c).registry.bind fun _ => (keeps_inDialect _).registry.bind fun _ =>
    (keeps_change _).registry.bind fun _ => .pure _

theorem keepsRegistry_replaceOne (c : Nat) (f : Filter) (document : Value) :
    KeepsRegistry (replaceOne c f document) := by
  unfold replaceOne
  refine (keepsRegistry_findOne ..).bind fun current => ?_
  split
  · exact .pure _
  · exact (Keeps.ofMisuse _).bind fun p => (keepsRegistry_writeOver ..).bind fun _ => .pure _

/-! ### Obtaining -/

/-- A collection that was made is handed out for its name, if none was before. -/
theorem lookup_register {s : Store} {x : Collection} (hnew : s.registry.lookup x.name = none) :
    (s.register x).registry.lookup x.name = some s.collections.length := by
  show (s.registry ++ [(x.name, s.collections.length)]).lookup x.name = _
  rw [List.lookup_append, hnew]
  simp

variable {s : Store} {t : Text} {c : Nat}

theorem outcome_obtain (hname : t ≠ []) :
    (obtain (.str t)).outcome s = (match s.registry.lookup t with
      | some c => (pure c : Action Nat)
      | none => makeCollection t).outcome s := by
  have hobtain : obtain (.str t) = (do
      let name ← ofMisuse (collectionName (.str t))
      match (← get).registry.lookup name with
      | some c => return c
      | none => makeCollection name) := rfl
  rw [hobtain, collectionName_eq_ok_iff.mpr ⟨rfl, hname⟩, ofMisuse_ok, pure_bind, outcome_get_bind]

/-- A collection that is handed out is obtained without anything being done. -/
theorem outcome_obtain_registered (hname : t ≠ []) (h : s.registry.lookup t = some c) :
    (obtain (.str t)).outcome s = (.ok c, s) := by
  rw [outcome_obtain hname, h]
  rfl

/-- A collection was obtained: it is handed out from now on, and nothing was sent but what makes a
table. -/
structure Obtained (s : Store) (t : Text) (c : Nat) (x : Collection) (es : List Event) (s' : Store) :
    Prop where
  registered : s'.registry.lookup t = some c
  made : s'.collections[c]? = some x
  named : x.table ≠ []
  script : s'.script = s.script
  leads : s.Leads es s'
  creates : ∀ text ∈ sentTexts s.engine es, IsCreate text

theorem ensures_makeCollection_obtained (hworks : s.Works) (hname : t ≠ [])
    (hnew : s.registry.lookup t = none) :
    Ensures (makeCollection t) s fun r s' => ∃ c x es, r = .ok c ∧ Obtained s t c x es s' := by
  have htable : tableName t ≠ [] := tableName_ne_nil hname
  unfold makeCollection
  refine ((ensures_makeTable _).and ((ensures_makeTable_script _).and
    ((keeps_makeTable _).registry.ensures s))).bind ?_ ?_
  · intro _ s₁ ⟨⟨⟨es, hs₁, hes⟩, _⟩, hscript, hregistry⟩
    rw [← hregistry] at hnew
    let s₂ : Store := { s₁ with
      journal := (s₁.collectionLogger t).log .info ("컬렉션 테이블 준비 완료: " ++ tableName t) none []
        s₁.journal }
    have hs₂ : s₁.Leads [] s₂ := .of_eq (List.append_nil _).symm rfl rfl rfl rfl rfl
    have hleads := (hs₁.trans hs₂).trans (s₂.leads_register ⟨t, tableName t, true⟩)
    rw [List.append_nil, List.append_nil] at hleads
    have hregistered : (s₂.register ⟨t, tableName t, true⟩).registry.lookup t =
        some s₂.collections.length :=
      lookup_register (s := s₂) (x := ⟨t, tableName t, true⟩) hnew
    have hmade : (s₂.collections ++ [⟨t, tableName t, true⟩])[s₂.collections.length]? =
        some ⟨t, tableName t, true⟩ := List.getElem?_concat_length
    exact ⟨_, _, es, rfl, hregistered, hmade, htable, hscript rfl, hleads, hes⟩
  · intro fault s₁ ⟨⟨_, hok⟩, _⟩
    cases hok hworks htable

/-- Where the database refuses nothing, a collection is obtained under every name but the empty one. -/
theorem ensures_obtain_obtained (hworks : s.Works) (hname : t ≠ [])
    (hserves : ∀ c, s.registry.lookup t = some c → s.Serves c) :
    Ensures (obtain (.str t)) s fun r s' => ∃ c x es, r = .ok c ∧ Obtained s t c x es s' := by
  cases hlookup : s.registry.lookup t with
  | some c =>
    obtain ⟨x, hx, hnamed⟩ := hserves c hlookup
    unfold Ensures
    rw [outcome_obtain_registered hname hlookup]
    exact ⟨c, x, [], rfl, hlookup, hx, hnamed, rfl, .refl s, nofun⟩
  | none =>
    unfold Ensures
    rw [outcome_obtain hname, hlookup]
    exact ensures_makeCollection_obtained hworks hname hlookup

end Action

end DocStore
