import DocStore.Proofs.Store.Writing

/-!
Verbs in steps. Every verb but those that drop a table, or open or close the
connection, does nothing but steps of the store.
-/

namespace DocStore

namespace Action

variable {P : Statement → Prop} {s : Store}

theorem within_findOptions (v : Value) : Within P (findOptions v) s fun _ _ => True := by
  unfold findOptions
  exact (within_ofMisuse _).bind fun _ _ _ _ => (within_ofChecked _).weaken

section

variable (hplain : ∀ st : Statement, st.IsPlain → P st)

include hplain

theorem within_search (name criteria : Value) :
    Within P (search name criteria) s fun _ _ => True := by
  have hrest (ms : Members) {s : Store} : Within P (do
      let filter := Filter.ofValue ((Members.get? ms "filter").getD .null)
      let c ← obtain name
      let options ← findOptions (.object (Members.erase ms "filter"))
      return (c, filter, options)) s fun _ _ => True := by
    refine (within_obtain hplain name).bind fun c s₁ _ _ => ?_
    exact (within_findOptions _).bind fun _ _ _ _ => .pure trivial
  unfold search
  split
  · exact (within_ofMisuse _).bind fun ms _ _ _ => hrest ms
  · exact hrest []

theorem within_findById (name v : Value)
    (hselect : ∀ st, (withIdOf v).ReadsBy s.dialect { limit := some 1 } st → P st) :
    Within P (findById name v) s fun _ _ => True := by
  unfold findById
  refine (within_obtain hplain name).bind fun c s₁ hs₁ _ => ?_
  rw [← hs₁.dialect] at hselect
  exact (within_findOne hplain hselect).weaken

theorem within_insert (name document : Value) :
    Within P (insert name document) s fun _ _ => True := by
  unfold insert
  refine (within_obtain hplain name).bind fun c s₁ _ _ => ?_
  split
  · exact within_insertOne hplain c _
  · split
    · exact .throw _
    · refine (within_identifiedAll _).bind fun stored s₂ _ _ => ?_
      exact (within_insertMany hplain c _).bind fun _ _ _ _ => .pure trivial

/-- Saving looks for documents by the id of the document that is saved, and by nothing else. -/
theorem within_save (name document : Value) (isCreate : Bool)
    (hselect : ∀ ms, document = .object ms → lacksId ms = false → ∀ st,
      (withIdOf ((Members.get? ms idField).getD .null)).ReadsBy s.dialect { limit := some 1 } st →
        P st) :
    Within P (save name document isCreate) s fun _ _ => True := by
  unfold save
  refine (within_obtain hplain name).bind fun c s₁ hs₁ _ => ?_
  rw [← hs₁.dialect] at hselect
  split
  next ms =>
    cases hid : lacksId ms with
    | true => exact within_insertOne hplain c _
    | false =>
      have hfilter := hselect ms rfl hid
      simp only [Bool.false_eq_true, if_false]
      cases isCreate with
      | true =>
        refine (within_replaceOne hplain _ hfilter).bind fun found s₂ _ _ => ?_
        cases found with
        | true => exact .pure trivial
        | false => exact within_insertOne hplain c _
      | false =>
        refine (within_updateOne hplain _ hfilter).bind fun found s₂ hs₂ _ => ?_
        cases found with
        | true =>
          rw [← hs₂.dialect] at hfilter
          exact (within_findOne hplain hfilter).bind fun _ _ _ _ => .pure trivial
        | false => exact within_insertOne hplain c _
  · exact .throw _

end

/-! ### Whatever is sent -/

section

variable (hP : ∀ st, P st)

include hP

theorem within_findAll (name : Value) (filter : Filter) :
    Within P (findAll name filter) s fun _ _ => True := by
  unfold findAll
  refine (within_obtain (fun st _ => hP st) name).bind fun c s₁ _ _ => ?_
  exact (within_find (fun st _ => hP st) fun st _ => hP st).weaken

theorem within_findReferring (name : Text) (field v : Value) :
    Within P (findReferring name field v) s fun _ _ => True := by
  unfold findReferring
  refine (within_obtain (fun st _ => hP st) _).bind fun c s₁ _ _ => ?_
  split
  · exact (within_find (fun st _ => hP st) fun st _ => hP st).weaken
  · exact .throw _

theorem within_changeField (name field : Value) (change : Value → Except Misuse Value)
    (documents : List Value) :
    Within P (changeField name field change documents) s fun _ _ => True := by
  induction documents generalizing s with
  | nil => exact .pure trivial
  | cons document documents ih =>
    unfold changeField
    refine (within_ofMisuse _).bind fun found s₁ _ _ => ?_
    split
    · refine (within_ofMisuse _).bind fun changed s₂ _ _ => ?_
      have hsave := within_save (s := s₂) (fun st _ => hP st) name changed true
        fun _ _ _ st _ => hP st
      refine hsave.bind fun _ s₃ _ _ => ?_
      exact ih.bind fun _ _ _ _ => .pure trivial
    · exact ih

theorem within_removeField (name field : Value) (filter : Filter) :
    Within P (removeField name field filter) s fun _ _ => True := by
  unfold removeField
  exact (within_findAll hP name filter).bind fun _ _ _ _ => within_changeField hP ..

theorem within_renameField (name field fresh : Value) (filter : Filter) :
    Within P (renameField name field fresh filter) s fun _ _ => True := by
  unfold renameField
  exact (within_findAll hP name filter).bind fun _ _ _ _ => within_changeField hP ..

/-! ### Relations -/

theorem within_lookedupOne (l : Lookedup) (collection v : Value) :
    Within P (l.findOne lookups collection v) s fun _ _ => True := by
  unfold Lookedup.findOne
  split
  · exact .pure trivial
  · have hlook : Within P (findById collection v) s fun _ _ => True :=
      within_findById (fun st _ => hP st) collection v fun st _ => hP st
    exact hlook.bind fun _ _ _ _ => .pure trivial

theorem within_lookedupMany (l : Lookedup) (collection : Text) (field v : Value) :
    Within P (l.findMany lookups collection field v) s fun _ _ => True := by
  unfold Lookedup.findMany
  split
  · exact .pure trivial
  · have hlook := within_findReferring (s := s) hP collection field v
    exact hlook.bind fun _ _ _ _ => .pure trivial

theorem within_fillOne (fields : List (Text × Value)) (done : Members × Lookedup) :
    Within P (Relations.fillOne lookups fields done) s fun _ _ => True := by
  induction fields generalizing s done with
  | nil => exact .pure trivial
  | cons field fields ih =>
    obtain ⟨name, collection⟩ := field
    obtain ⟨ms, l⟩ := done
    unfold Relations.fillOne
    dsimp only
    split
    · exact ih _
    · split
      · exact .throw _
      · exact (within_lookedupOne hP ..).bind fun _ _ _ _ => ih _

theorem within_fillMany (v : Value) (fields : List (Text × Value)) (done : Members × Lookedup) :
    Within P (Relations.fillMany lookups v fields done) s fun _ _ => True := by
  induction fields generalizing s done with
  | nil => exact .pure trivial
  | cons field fields ih =>
    obtain ⟨name, collection⟩ := field
    obtain ⟨ms, l⟩ := done
    unfold Relations.fillMany
    split
    · exact .throw _
    · exact (within_lookedupMany hP ..).bind fun _ _ _ _ => ih _

theorem within_fill (r : Relations) (document : Value) (l : Lookedup) :
    Within P (r.fill lookups document l) s fun _ _ => True := by
  unfold Relations.fill
  split
  · exact .pure trivial
  · split
    · exact .throw _
    · refine (within_fillOne hP ..).bind ?_
      rintro ⟨ms, l⟩ s₁ - -
      dsimp only
      split
      · exact .pure trivial
      · exact .pure trivial
      · exact (within_fillMany hP ..).bind fun _ _ _ _ => .pure trivial

theorem within_fillAll (r : Relations) (documents : List Value) (l : Lookedup) :
    Within P (r.fillAll lookups documents l) s fun _ _ => True := by
  induction documents generalizing s l with
  | nil => exact .pure trivial
  | cons document documents ih =>
    refine (within_fill hP r document l).bind ?_
    rintro ⟨v, l⟩ s₁ - -
    exact (ih l).bind fun _ _ _ _ => .pure trivial

end

end Action

/-- Whether a verb sends nothing that the caller wrote, drops no table, and neither opens nor closes the
connection. -/
def Verb.IsOrdinary : Verb → Prop
  | .dropCollection _ | .on _ .drop => False
  | .send _ | .rows _ | .eachRow _ => False
  | .connect | .close => False
  | _ => True

open DocStore.Action in
/-- What is done to one collection, unless its table is dropped, is steps of the store. -/
theorem CollectionVerb.within_run {s : Store} {c : Nat} {v : CollectionVerb} (hv : v ≠ .drop) :
    Within (fun _ => True) (v.run c) s fun _ _ => True := by
  have hplain (st : Statement) (_ : st.IsPlain) : True := trivial
  cases v with
  | findOne filter options =>
    refine (within_findOptions options).bind fun options s₁ _ _ => ?_
    exact (within_findOne hplain fun _ _ => trivial).bind fun _ _ _ _ => .pure trivial
  | insertOne document => exact (within_insertOne hplain c document).bind fun _ _ _ _ => .pure trivial
  | insertMany documents =>
    unfold run
    dsimp only
    split
    · exact (within_insertMany hplain c _).bind fun _ _ _ _ => .pure trivial
    · exact .throw _
  | updateMany filter patch options =>
    refine (within_findOptions options).bind fun options s₁ _ _ => ?_
    have hupdate : Within (fun _ => True) (Action.updateMany c filter patch options) s₁ _ :=
      within_updateMany hplain patch fun _ _ => trivial
    exact hupdate.bind fun _ _ _ _ => .pure trivial
  | updateOne filter patch =>
    have hupdate : Within (fun _ => True) (Action.updateOne c filter patch) s _ :=
      within_updateOne hplain patch fun _ _ => trivial
    exact hupdate.bind fun _ _ _ _ => .pure trivial
  | replaceOne filter document =>
    have hreplace : Within (fun _ => True) (Action.replaceOne c filter document) s _ :=
      within_replaceOne hplain document fun _ _ => trivial
    exact hreplace.bind fun _ _ _ _ => .pure trivial
  | deleteMany filter =>
    have hdelete : Within (fun _ => True) (Action.deleteMany c filter) s _ :=
      within_deleteMany hplain (fun _ _ _ => trivial) fun _ _ => trivial
    exact hdelete.bind fun _ _ _ _ => .pure trivial
  | count filter =>
    exact (within_count (fun _ => trivial) c filter).bind fun _ _ _ _ => .pure trivial
  | drop => exact absurd rfl hv
  | ensureTable => exact (within_ensureTable hplain c).bind fun _ _ _ _ => .pure trivial

open DocStore.Action in
/-- What an ordinary verb does is steps of the store. -/
theorem Verb.within_run {s : Store} {v : Verb} (hv : v.IsOrdinary) :
    Within (fun _ => True) v.run s fun _ _ => True := by
  have hplain (st : Statement) (_ : st.IsPlain) : True := trivial
  have hP (st : Statement) : True := trivial
  cases v with
  | obtain name database => exact (within_obtain hplain _).bind fun _ _ _ _ => .pure trivial
  | hasCollection name =>
    exact (within_hasTable (fun _ => trivial) name).bind fun _ _ _ _ => .pure trivial
  | dropCollection name => exact hv.elim
  | findOne name filter =>
    refine (within_obtain hplain name).bind fun c s₁ _ _ => ?_
    exact (within_findOne hplain fun _ _ => trivial).bind fun _ _ _ _ => .pure trivial
  | findById name id =>
    have hfind := within_findById (s := s) hplain name id fun _ _ => trivial
    exact hfind.bind fun _ _ _ _ => .pure trivial
  | save name document isCreate =>
    have hsave := within_save (s := s) hplain name document isCreate fun _ _ _ _ _ => trivial
    exact hsave.bind fun _ _ _ _ => .pure trivial
  | insert name document =>
    exact (within_insert hplain name document).bind fun _ _ _ _ => .pure trivial
  | update name filter patch =>
    refine (within_obtain hplain name).bind fun c s₁ _ _ => ?_
    have hupdate : Within (fun _ => True) (Action.updateMany c filter patch {}) s₁ _ :=
      within_updateMany hplain patch fun _ _ => trivial
    exact hupdate.bind fun _ _ _ _ => .pure trivial
  | remove name filter =>
    exact (within_obtain hplain name).bind fun c s₁ _ _ => CollectionVerb.within_run nofun
  | count name filter =>
    exact (within_obtain hplain name).bind fun c s₁ _ _ => CollectionVerb.within_run nofun
  | removeField name field filter =>
    exact (within_removeField hP name field filter).bind fun _ _ _ _ => .pure trivial
  | renameField name field fresh filter =>
    exact (within_renameField hP name field fresh filter).bind fun _ _ _ _ => .pure trivial
  | on c verb =>
    refine CollectionVerb.within_run ?_
    rintro rfl
    exact hv
  | send text => exact hv.elim
  | rows text => exact hv.elim
  | eachRow text => exact hv.elim
  | quote text => exact (within_inDialect _).bind fun _ _ _ _ => .pure trivial
  | isOpen => exact .get_bind (.pure trivial)
  | connect => exact hv.elim
  | close => exact hv.elim

end DocStore
