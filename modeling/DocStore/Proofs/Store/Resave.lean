import DocStore.Proofs.Store.Lookup
import DocStore.Proofs.Store.Merge
import DocStore.Proofs.Store.Registry

/-!
Documents saved again. A field is removed or renamed by saving each document
that has it once more: the document of its identifier is looked up, and what it
became is written over that. This is so for every field but the identifier
itself. Where that is removed, or where another field takes its name, what is
saved has not the identifier of its document any more, and comes as one more
document.
-/

namespace DocStore

/-! ### Changed documents -/

/-- A change of documents that have a field: they stay objects that have a JSON text, and keep their
identifiers. -/
def KeepsIds (field : Text) (change : Value → Except Misuse Value) : Prop :=
  ∀ ms : Members, ms.has field = true → (Json.encode (.object ms)).isSome →
    ∃ changed : Members, change (.object ms) = .ok (.object changed) ∧
      changed.get? idField = ms.get? idField ∧ (Json.encode (.object changed)).isSome

theorem isSome_encode_erase {ms : Members} (h : (Json.encode (.object ms)).isSome) (key : Text) :
    (Json.encode (.object (ms.erase key))).isSome := by
  rw [Json.isSome_encode_object] at h ⊢
  intro m hm
  exact h m (List.mem_of_mem_filter hm)

theorem keepsIds_withoutField {field : Text} (hfield : field ≠ idField) :
    KeepsIds field (Action.withoutField (.str field)) := by
  intro ms _ hjson
  exact ⟨ms.erase field, rfl, Members.get?_erase_of_ne (Ne.symm hfield) ms,
    isSome_encode_erase hjson field⟩

theorem keepsIds_withRenamed {field fresh : Text} (hfield : field ≠ idField)
    (hfresh : fresh ≠ idField) : KeepsIds field (Action.withRenamed (.str field) (.str fresh)) := by
  intro ms hhas hjson
  obtain ⟨v, hv⟩ := Members.has_iff.mp hhas
  refine ⟨(ms.erase field).insert fresh v, ?_, ?_, ?_⟩
  · unfold Action.withRenamed
    dsimp only [Members.ofValue, bind, Except.bind]
    rw [hv]
    rfl
  · rw [Members.get?_insert, if_neg (Ne.symm hfresh), Members.get?_erase_of_ne (Ne.symm hfield)]
  · have hv' := Json.isSome_encode_object.mp hjson _ (Members.mem_of_get? hv)
    have herase := Json.isSome_encode_object.mp (isSome_encode_erase hjson field)
    exact Json.isSome_encode_object.mpr
      (Members.forall_mem_insert (P := fun v => (Json.encode v).isSome) _ hv' herase)

/-! ### Looking up one document -/

/-- A reply begins with a document: it is that of its first row. -/
def Reply.BeginsWith (reply : Reply) (document : Value) : Prop :=
  ∃ cell row rows, reply.rows = (cell :: row) :: rows ∧ storedDocument cell = .ok document

namespace Action

variable {s : Store} {c : Nat} {t : Text} {document v : Value}

/-- The first document of a query is read from the first row of its answer, and no other row is
fetched. -/
theorem ensures_first_reads {q : Query} {row : Row} {rows : List Row} (hworks : s.Works)
    (hserves : s.Serves q.collection) (hselect : ("SELECT" : Text) <+: q.statement.text s.engine)
    (hreply : (Store.nextReply s.script).1.rows = row :: rows) (hlimit : q.limit ≠ some 0)
    (hrow : q.taken q.skip row = .ok (some document, 0)) :
    Ensures q.documents.first s fun r s' => r = .ok document ∧
      s'.script = (Store.nextReply s.script).2 ∧ ∃ made cursor, s.Prepares q.collection made ∧
        s.Leads (made ++ [.send cursor q.statement, .fetch cursor true, .close cursor]) s' := by
  unfold Documents.first Documents.next
  rw [bind_assoc]
  refine (ensures_opened_asks hworks hserves hselect).bind ?_ ?_
  · rintro _ s₁ ⟨cursor, made, ⟨⟩, hs₁, hmade, hscript⟩
    have hleft : ({ q.documents with
      reading := .under cursor (Store.nextReply s.script).1 } : Documents).left ≠ some 0 := hlimit
    dsimp only
    rw [if_neg hleft, hreply, nextAmong, bind_assoc, ensures_takeRow_bind]
    dsimp only [Query.documents]
    rw [hrow]
    refine ⟨rfl, hscript, made, cursor, hmade, ?_⟩
    have hs' : s₁.Leads [.fetch cursor true, .close cursor] { s₁ with
      trace := s₁.trace ++ [.fetch cursor true] ++ [.close cursor] } :=
      .of_eq (List.append_assoc ..) rfl rfl rfl rfl rfl
    have hleads := hs₁.trans hs'
    rw [List.append_assoc] at hleads
    exact hleads
  · rintro fault s₁ ⟨cursor, made, h, -⟩
    cases h

end Action

/-- A collection is in use: the database refuses nothing, the collection is handed out under its name,
and it knows its table to be there. -/
structure Store.Uses (s : Store) (t : Text) (c : Nat) (table : Text) : Prop where
  works : s.Works
  name : t ≠ []
  registered : s.registry.lookup t = some c
  ready : s.IsReady c table
  table : table ≠ []

/-- A document is looked up by its identifier, and members are written over what was found. -/
def Dialect.SavesOver (d : Dialect) (table : Text) (id : Value) (ms : Members) (es : List Event) :
    Prop :=
  ∃ (m n : Nat) (lookup update : Statement), d.LooksUp id (lookup.text d.engine) ∧
    lookup.table? = some table ∧ d.WritesOver table id ms update ∧
    es = [.send m lookup, .fetch m true, .close m, .send n update, .close n]

namespace Action

variable {s : Store} {c : Nat} {t table : Text} {ms found : Members} {v : Value}

theorem isPlainId_of_literal {d : Dialect} {literal : Sql} (h : d.literal v = .ok literal) :
    v.IsPlainId := by
  cases v with
  | object => cases h
  | pattern => cases h
  | _ => trivial

/-- A search for an identifier that has a literal is compiled to one test, and nothing is done for it. -/
theorem exists_compile_withIdOf {x : Collection} (hworks : s.Works) (hx : s.collections[c]? = some x)
    (hliteral : ∃ literal, s.dialect.literal v = .ok literal) :
    ∃ test, s.dialect.idTest v = .ok test ∧ (compile c (withIdOf v) { limit := some 1 }).outcome s =
      (.ok (.ofCriteria c x.table (some ("WHERE " ++ test)) none { limit := some 1 }), s) := by
  obtain ⟨literal, hliteral⟩ := hliteral
  obtain ⟨selector, hselector⟩ := Dialect.exists_selector_id hworks.quotesAll
  have htest : ∃ test, s.dialect.idTest v = .ok test := by
    unfold Dialect.idTest
    rw [hselector, hliteral]
    cases v.isNull <;> exact ⟨_, rfl⟩
  obtain ⟨test, htest⟩ := htest
  have hcondition : s.dialect.whereClause (.object (Members.one idField v)) =
      .ok (some ("WHERE " ++ test)) := by
    rw [Dialect.whereClause_id (isPlainId_of_literal hliteral), htest]
    rfl
  exact ⟨test, htest, outcome_compile_criteria hx hcondition rfl (Nat.zero_le _)⟩

/-- The document of an identifier is found by one query, and only the first row of its answer is read. -/
theorem ensures_findOne_first {x : Collection} (hworks : s.Works) (hx : s.collections[c]? = some x)
    (hname : x.table ≠ []) (hliteral : ∃ literal, s.dialect.literal v = .ok literal) {document : Value}
    (hreply : (Store.nextReply s.script).1.BeginsWith document) :
    Ensures (findOne c (withIdOf v) {}) s fun r s' => r = .ok document ∧
      s'.script = (Store.nextReply s.script).2 ∧ ∃ made cursor lookup, s.Prepares c made ∧
        s.Leads (made ++ [.send cursor lookup, .fetch cursor true, .close cursor]) s' ∧
        s.dialect.LooksUp v (lookup.text s.engine) ∧ lookup.table? = some x.table := by
  obtain ⟨test, htest, hcompiled⟩ := exists_compile_withIdOf hworks hx hliteral
  obtain ⟨cell, row, rows, hrows, hdocument⟩ := hreply
  refine ensures_bind_ok hcompiled ?_
  have hexamine : (Query.ofCriteria c x.table (some ("WHERE " ++ test)) none
      { limit := some 1 }).examine (cell :: row) = .ok (some document) := by
    show (do return some (← storedDocument cell)) = _
    rw [hdocument]
    rfl
  have hrow : (Query.ofCriteria c x.table (some ("WHERE " ++ test)) none
      { limit := some 1 }).taken 0 (cell :: row) = .ok (some document, 0) := by
    unfold Query.taken
    rw [hexamine]
    rfl
  refine (ensures_first_reads hworks ⟨x, hx, hname⟩ (Statement.prefix_select ..) hrows
    (Option.some_ne_none 0).symm hrow).mono ?_
  rintro r s' ⟨hr, hscript, made, cursor, hmade, hs'⟩
  exact ⟨hr, hscript, made, cursor, _, hmade, hs', Dialect.looksUp_select htest, rfl⟩

/-- Where a collection is in use, nothing is done before its document is looked up. -/
theorem ensures_findOne_id (huses : s.Uses t c table)
    (hliteral : ∃ literal, s.dialect.literal v = .ok literal) {document : Value}
    (hreply : (Store.nextReply s.script).1.BeginsWith document) :
    Ensures (findOne c (withIdOf v) {}) s fun r s' => r = .ok document ∧
      s'.script = (Store.nextReply s.script).2 ∧ ∃ cursor lookup,
        s.Leads [.send cursor lookup, .fetch cursor true, .close cursor] s' ∧
        s.dialect.LooksUp v (lookup.text s.engine) ∧ lookup.table? = some table := by
  obtain ⟨x, hx, rfl, -⟩ := huses.ready
  refine (ensures_findOne_first huses.works hx huses.table hliteral hreply).mono ?_
  rintro r s' ⟨hr, hscript, made, cursor, lookup, hmade, hs', hlookup⟩
  obtain rfl := hmade.ready ⟨_, huses.ready⟩
  exact ⟨hr, hscript, cursor, lookup, hs', hlookup⟩

/-- Where the document of an identifier is found, members with that identifier are saved over it. -/
theorem ensures_replaceOne_over (huses : s.Uses t c table) (hid : ms.get? idField = some v)
    (hliteral : ∃ literal, s.dialect.literal v = .ok literal)
    (hjson : (Json.encode (.object ms)).isSome)
    (hreply : (Store.nextReply s.script).1.BeginsWith (.object found))
    (hfound : found.get? idField = some v) :
    Ensures (replaceOne c (withIdOf v) (.object ms)) s fun r s' => r = .ok true ∧
      s'.script = (Store.nextReply s.script).2 ∧ ∃ es, s.Leads es s' ∧
        s.dialect.SavesOver table v ms es := by
  unfold replaceOne
  refine (ensures_findOne_id huses hliteral hreply).bind ?_ ?_
  · rintro _ s₁ ⟨⟨⟩, hscript, m, lookup, hs₁, hlookup, htable⟩
    obtain ⟨x, hx, rfl, -⟩ := huses.ready
    obtain ⟨x', hx', -, hx''⟩ := hs₁.tables c x hx
    have hreplacing : replacing (.object ms) (.object found) = .ok (v, ms) := by
      show (do
        let id ← (Value.object found).fieldOf idField
        return (id, ms.insert idField id)) = _
      rw [Value.fieldOf, hfound]
      exact congrArg (fun members => Except.ok (v, members)) (Members.insert_of_get? hid)
    rw [hreplacing, ofMisuse_ok, pure_bind]
    have hover := ensures_writeOver (hs₁.works huses.works) hx' hjson (by rwa [hs₁.dialect])
    show Ensures (do writeOver c v ms; return true) s₁ _
    refine hover.bind ?_ ?_
    · rintro _ s' ⟨-, hscript', n, update, hs', hupdate⟩
      rw [hs₁.dialect, hx''] at hupdate
      exact ⟨rfl, hscript'.trans hscript, _, hs₁.trans hs', m, n, lookup, update, hlookup, htable,
        hupdate, rfl⟩
    · rintro fault s' ⟨h, -⟩
      cases h
  · rintro fault s₁ ⟨h, -⟩
    cases h

/-- A collection stays in use through steps that lead on and leave the collections handed out. -/
theorem uses_of_steps {P : Statement → Prop} {s' : Store} {es : List Event} (huses : s.Uses t c table)
    (hs' : s.Leads es s') (hregistry : s'.registry = s.registry) (hsteps : s.Steps P s') :
    s'.Uses t c table where
  works := hs'.works huses.works
  name := huses.name
  registered := by rw [hregistry]; exact huses.registered
  ready := hsteps.isReady huses.ready
  table := huses.table

/-- Where the document of its identifier is found, a document is saved by one statement that writes it
over that. -/
theorem ensures_save_over (huses : s.Uses t c table) (hlacks : lacksId ms = false)
    (hid : ms.get? idField = some v) (hliteral : ∃ literal, s.dialect.literal v = .ok literal)
    (hjson : (Json.encode (.object ms)).isSome)
    (hreply : (Store.nextReply s.script).1.BeginsWith (.object found))
    (hfound : found.get? idField = some v) :
    Ensures (save (.str t) (.object ms) true) s fun r s' => r = .ok (.object ms) ∧
      s'.script = (Store.nextReply s.script).2 ∧ s'.Uses t c table ∧ ∃ es, s.Leads es s' ∧
        s.dialect.SavesOver table v ms es := by
  have hsteps : Within (fun _ => True) (replaceOne c (withIdOf v) (.object ms)) s fun _ _ => True :=
    within_replaceOne (fun _ _ => trivial) _ fun _ _ => trivial
  have hregistry := (keepsRegistry_replaceOne c (withIdOf v) (.object ms)).ensures s
  have hreplace := ensures_replaceOne_over huses hid hliteral hjson hreply hfound
  unfold save
  refine ensures_bind_ok (outcome_obtain_registered huses.name huses.registered) ?_
  simp only [hlacks, hid, Option.getD_some, Bool.false_eq_true, if_false, if_true]
  refine (hreplace.and (Ensures.and hregistry hsteps)).bind ?_ ?_
  · rintro _ s' ⟨⟨⟨⟩, hscript, es, hs', hes⟩, hregistry, hsteps, -⟩
    exact ⟨rfl, hscript, uses_of_steps huses hs' hregistry hsteps, es, hs', hes⟩
  · rintro fault s' ⟨⟨h, -⟩, -⟩
    cases h

end Action

/-- A document that can be saved under its identifier, which has a literal and is neither null nor
empty. -/
def Dialect.Identifies (d : Dialect) (document : Value) : Prop :=
  ∃ (ms : Members) (id : Value) (literal : Sql), document = .object ms ∧ lacksId ms = false ∧
    ms.get? idField = some id ∧ d.literal id = .ok literal

/-- Whether a document has a field. -/
def Value.holds (field : Text) : Value → Bool
  | .object ms => Members.has ms field
  | _ => false

/-- A document is saved again as what it was changed to, over the document of the identifier that it had
and still has. -/
def Dialect.Resaves (d : Dialect) (table : Text) (change : Value → Except Misuse Value)
    (document : Value) (es : List Event) : Prop :=
  ∃ (ms changed : Members) (id : Value), document = .object ms ∧ ms.get? idField = some id ∧
    change document = .ok (.object changed) ∧ changed.get? idField = some id ∧
    d.SavesOver table id changed es

/-- Without options a search finds all documents that its filter matches. -/
theorem Filter.found_all (f : Filter) (rows : List Row) : f.found {} rows = f.course rows := by
  refine (f.found_full {} rows).trans ?_
  cases f <;> rfl

namespace Action

variable {s : Store} {c : Nat} {t table field : Text} {change : Value → Except Misuse Value}

theorem lacksId_congr {ms ns : Members} (h : ms.get? idField = ns.get? idField) :
    lacksId ms = lacksId ns := by
  unfold lacksId
  rw [h]

/-- One round of a change: a document that has the field is saved again. -/
theorem ensures_save_changed {ms : Members} (hchange : KeepsIds field change)
    (huses : s.Uses t c table) (hhas : ms.has field = true) (hid : s.dialect.Identifies (.object ms))
    (hjson : (Json.encode (.object ms)).isSome)
    (hreply : (Store.nextReply s.script).1.BeginsWith (.object ms)) :
    Ensures (do save (.str t) (← ofMisuse (change (.object ms))) true) s fun r s' =>
      (∃ v, r = .ok v) ∧ s'.script = (Store.nextReply s.script).2 ∧ s'.Uses t c table ∧
        ∃ es, s.Leads es s' ∧ s.dialect.Resaves table change (.object ms) es := by
  obtain ⟨_, id, literal, ⟨⟩, hlacks, hget, hliteral⟩ := hid
  obtain ⟨changed, hchanged, hkept, hjson'⟩ := hchange ms hhas hjson
  rw [hchanged, ofMisuse_ok, pure_bind]
  refine (ensures_save_over huses (by rwa [lacksId_congr hkept]) (hkept.trans hget) ⟨literal, hliteral⟩
    hjson' hreply hget).mono ?_
  rintro r s' ⟨hr, hscript, huses', es, hs', hes⟩
  exact ⟨⟨_, hr⟩, hscript, huses', es, hs', ms, changed, id, rfl, hget, hchanged,
    hkept.trans hget, hes⟩

/-- The documents that have a field are saved again in their order, one round each; the others are left
alone. -/
theorem ensures_changeField (hchange : KeepsIds field change) (huses : s.Uses t c table)
    {documents : List Value} {lookups later : List Reply}
    (hids : ∀ document ∈ documents, s.dialect.Identifies document)
    (hjson : ∀ document ∈ documents, (Json.encode document).isSome)
    (hreplies : s.script.replies = lookups ++ later)
    (hlookups : List.Forall₂ (fun document reply => reply.BeginsWith document)
      (documents.filter (·.holds field)) lookups) :
    Ensures (changeField (.str t) (.str field) change documents) s fun r s' =>
      r = .ok (documents.filter (·.holds field)).length ∧ ∃ rounds, s.Leads rounds.flatten s' ∧
        List.Forall₂ (s.dialect.Resaves table change) (documents.filter (·.holds field)) rounds := by
  -- Each round leaves the collection in use and takes the reply of its lookup.
  induction documents generalizing s lookups with
  | nil => exact ⟨rfl, [], .refl s, .nil⟩
  | cons document documents ih =>
    obtain ⟨hid, hrest⟩ := List.forall_mem_cons.mp hids
    obtain ⟨hdocument, htexts⟩ := List.forall_mem_cons.mp hjson
    obtain ⟨ms, id, literal, rfl, -⟩ := id hid
    unfold changeField
    rw [show (Value.object ms).hasField (.str field) = .ok (ms.has field) from rfl, ofMisuse_ok,
      pure_bind]
    cases hhas : ms.has field with
    | false =>
      have hholds : ¬ (Value.object ms).holds field = true := by simp [Value.holds, hhas]
      rw [List.filter_cons_of_neg hholds] at hlookups ⊢
      exact ih huses hrest htexts hreplies hlookups
    | true =>
      have hholds : (Value.object ms).holds field = true := hhas
      rw [List.filter_cons_of_pos hholds] at hlookups ⊢
      obtain ⟨reply, others, hreply, hothers, rfl⟩ := List.forall₂_cons_left_iff.mp hlookups
      have hnext : Store.nextReply s.script =
          (reply, { s.script with replies := others ++ later }) := by
        rw [Store.nextReply, hreplies]
        rfl
      have hround := ensures_save_changed hchange huses hhas hid hdocument (by rwa [hnext])
      rw [if_pos rfl, ← bind_assoc]
      refine hround.bind ?_ ?_
      · rintro v s₁ ⟨-, hscript, huses₁, es, hs₁, hes⟩
        rw [hnext] at hscript
        refine (ih huses₁ (by rwa [hs₁.dialect]) htexts (by rw [hscript]) hothers).bind ?_ ?_
        · rintro n s' ⟨⟨⟩, rounds, hs', hrounds⟩
          rw [hs₁.dialect] at hrounds
          exact ⟨rfl, es :: rounds, hs₁.trans hs', .cons hes hrounds⟩
        · rintro fault s' ⟨h, -⟩
          cases h
      · rintro fault s₁ ⟨⟨_, h⟩, -⟩
        cases h

/-- All documents that a filter matches are found in a collection that is obtained first, which is in
use from then on. -/
theorem ensures_findAll_uses {f : Filter} {rows : List Row} (hworks : s.Works)
    (hoffers : s.Offers (.str t))
    (hcompiles : ∀ v, f = .criteria v → ∃ condition, s.dialect.whereClause v = .ok condition)
    (hreply : (Store.nextReply s.script).1 = ⟨rows, none⟩) :
    Ensures (findAll (.str t) f) s fun r s' => r = (f.course rows).result ∧
      s'.script = (Store.nextReply s.script).2 ∧ ∃ c table made searched,
        (∀ documents, r = .ok documents → s'.Uses t c table) ∧ s.Leads (made ++ searched) s' ∧
        (∀ text ∈ sentTexts s.engine made, IsCreate text) ∧
        Searches s.dialect table f {} rows searched := by
  obtain ⟨_, ⟨⟩, hname, hserves⟩ := hoffers
  unfold findAll
  refine (ensures_obtain_obtained hworks hname hserves).bind ?_ ?_
  · rintro c s₁ ⟨_, x, made, ⟨⟩, hobtained⟩
    have hworks₁ := hobtained.leads.works hworks
    have hdialect := hobtained.leads.dialect
    have hcompiles₁ : ∃ q, ((compile c f {}).outcome s₁).1 = .ok q := by
      cases f with
      | predicate selects =>
        have h : (compile c (.predicate selects) {}).outcome s₁ = _ :=
          outcome_compile_predicate hobtained.made rfl (Nat.zero_le _)
        exact ⟨_, congrArg Prod.fst h⟩
      | criteria v =>
        obtain ⟨condition, hcondition⟩ := hcompiles v rfl
        rw [← hdialect] at hcondition
        have h : (compile c (.criteria v) {}).outcome s₁ = _ :=
          outcome_compile_criteria hobtained.made hcondition rfl (Nat.zero_le _)
        exact ⟨_, congrArg Prod.fst h⟩
    have hfind := ensures_find_searches hworks₁ hobtained.made hobtained.named hcompiles₁
      (by rwa [hobtained.script])
    have hregistry := (keepsRegistry_find c f {}).ensures s₁
    have hsteps : Within (fun _ => True) (find c f {}) s₁ fun _ s' => ∃ table, s'.IsReady c table :=
      within_find (fun _ _ => trivial) fun _ _ => trivial
    refine (hfind.and (Ensures.and hregistry hsteps)).mono ?_
    rintro r s' ⟨⟨hr, hscript, made', searched, hs', hmade', hsearched⟩, hregistry, hsteps, hready⟩
    rw [Filter.found_all] at hr
    rw [hdialect] at hsearched
    have hleads := hobtained.leads.trans hs'
    rw [← List.append_assoc] at hleads
    refine ⟨hr, by rw [hscript, hobtained.script], c, x.table, made ++ made', searched, ?_, hleads, ?_,
      hsearched⟩
    · intro documents hdocuments
      obtain ⟨y, hy, -, htable⟩ := hs'.tables c x hobtained.made
      obtain ⟨table, htable'⟩ := hready documents hdocuments
      have hown := htable'.own hy
      rw [htable] at hown
      exact ⟨hs'.works hworks₁, hname, by rw [hregistry]; exact hobtained.registered, hown,
        hobtained.named⟩
    · rw [sentTexts_append]
      have hcreates := hmade'.creates
      rw [hobtained.leads.engine] at hcreates
      exact List.forall_mem_append.mpr ⟨hobtained.creates, hcreates⟩
  · rintro fault s₁ ⟨c, x, made, h, -⟩
    cases h

end Action

namespace Verb

open DocStore.Action

/-- A verb changes a field of the documents that a filter matches: it removes the field, or gives it
another name, and neither name is that of the identifier. -/
inductive ChangesField (name field : Text) (f : Filter) :
    (Value → Except Misuse Value) → Verb → Prop
  | remove (h : field ≠ idField) :
    ChangesField name field f (withoutField (.str field)) (.removeField (.str name) (.str field) f)
  | rename {fresh : Text} (h : field ≠ idField) (hfresh : fresh ≠ idField) :
    ChangesField name field f (withRenamed (.str field) (.str fresh))
      (.renameField (.str name) (.str field) (.str fresh) f)

variable {s : Store} {u : Verb} {name field : Text} {f : Filter}
  {change : Value → Except Misuse Value}

theorem ChangesField.keepsIds (h : u.ChangesField name field f change) : KeepsIds field change := by
  cases h with
  | remove h => exact keepsIds_withoutField h
  | rename h hfresh => exact keepsIds_withRenamed h hfresh

theorem ChangesField.run_eq (h : u.ChangesField name field f change) :
    u.run = (do
      let documents ← findAll (.str name) f
      return Answer.integer (← changeField (.str name) (.str field) change documents)) := by
  cases h with
  | remove => exact bind_assoc ..
  | rename => exact bind_assoc ..

/-- Where a field other than the identifier is removed or renamed, no document becomes another one. All
documents that the filter matches are read before anything is written; then those that have the field
are saved again in their order, one statement for each, which is addressed to the identifier that the
document has and keeps; nothing is sent for the others, and the answer is how many had the field. -/
theorem run_resaves {rows : List Row} {lookups later : List Reply}
    (hu : u.ChangesField name field f change) (hworks : s.Works) (hoffers : s.Offers (.str name))
    (hcompiles : ∀ v, f = .criteria v → ∃ condition, s.dialect.whereClause v = .ok condition)
    (hreplies : s.script.replies = ⟨rows, none⟩ :: (lookups ++ later))
    (hrows : ∀ row ∈ rows, ∀ cell ∈ row.head?, cell.IsCell)
    (hids : ∀ document ∈ (f.course rows).documents, s.dialect.Identifies document)
    (hlookups : List.Forall₂ (fun document reply => reply.BeginsWith document)
      ((f.course rows).documents.filter (·.holds field)) lookups) :
    Ensures u.run s fun r s' => ∃ table made searched rounds,
      s'.trace = s.trace ++ (made ++ searched) ++ rounds.flatten ∧
      (∀ t ∈ sentTexts s.engine made, IsCreate t) ∧ Searches s.dialect table f {} rows searched ∧
      match (f.course rows).stop with
      | some fault => r = .error (.misuse fault) ∧ rounds = []
      | none =>
        r = .ok (.integer ((f.course rows).documents.filter (·.holds field)).length) ∧
          List.Forall₂ (s.dialect.Resaves table change)
            ((f.course rows).documents.filter (·.holds field)) rounds := by
  have hnext : Store.nextReply s.script =
      (⟨rows, none⟩, { s.script with replies := lookups ++ later }) := by
    rw [Store.nextReply, hreplies]
  rw [hu.run_eq]
  refine (ensures_findAll_uses hworks hoffers hcompiles (by rw [hnext])).bind ?_ ?_
  · rintro documents s₁ ⟨hdocuments, hscript, c, table, made, searched, huses, hs₁, hmade, hsearched⟩
    obtain ⟨hstop, rfl⟩ := Course.eq_of_result hdocuments.symm
    have hjson : ∀ document ∈ (f.course rows).documents, (Json.encode document).isSome := by
      intro document hdocument
      obtain ⟨row, hrow, hexamine⟩ := Course.mem_ofRows hdocument
      exact Filter.isSome_encode_of_examine (hrows row hrow) hexamine
    have hids₁ : ∀ document ∈ (f.course rows).documents, s₁.dialect.Identifies document := by
      rwa [hs₁.dialect]
    rw [hnext] at hscript
    refine (ensures_changeField hu.keepsIds (huses _ rfl) hids₁ hjson (by rw [hscript])
      hlookups).bind ?_ ?_
    · rintro n s' ⟨⟨⟩, rounds, hs', hrounds⟩
      rw [hs₁.dialect] at hrounds
      refine ⟨table, made, searched, rounds, ?_, hmade, hsearched, ?_⟩
      · show s'.trace = _
        rw [hs'.trace, hs₁.trace]
      · rw [hstop]
        exact ⟨rfl, hrounds⟩
    · rintro fault s' ⟨h, -⟩
      cases h
  · rintro fault s₁ ⟨hdocuments, -, c, table, made, searched, -, hs₁, hmade, hsearched⟩
    obtain ⟨stop, hstop, rfl⟩ := Course.exists_stop_of_result hdocuments.symm
    refine ⟨table, made, searched, [], ?_, hmade, hsearched, ?_⟩
    · rw [hs₁.trace, List.flatten_nil, List.append_nil]
    · rw [hstop]
      exact ⟨rfl, rfl⟩

/-- Two documents, of which the first has a field. -/
def withTags : Members := [(idField, .str "x"), ("tags", .int 1)]

def withoutTags : Members := [(idField, .str "y")]

/-- A connection whose database finds both documents, and then the first one. -/
def finding : Store :=
  { Store.ready .pgsql with script := { replies :=
    [⟨[[.object withTags], [.object withoutTags]], none⟩, ⟨[[.object withTags]], none⟩] } }

/-- Of two documents that are matched one has the field, and it alone is saved again. -/
theorem run_resaves_one :
    Ensures (Verb.renameField (.str "c") (.str "tags") (.str "labels") (.criteria .null)).run finding
      fun r s' => ∃ table before round, s'.trace = before ++ round ∧ r = .ok (.integer 1) ∧
        finding.dialect.Resaves table (withRenamed (.str "tags") (.str "labels")) (.object withTags)
          round := by
  have hu : (Verb.renameField (.str "c") (.str "tags") (.str "labels")
      (.criteria .null)).ChangesField "c" "tags" (.criteria .null)
      (withRenamed (.str "tags") (.str "labels")) := .rename (by decide) (by decide)
  have hencode (ms : Members) (hms : ms = withTags ∨ ms = withoutTags) :
      (Json.encode (.object ms)).isSome := by
    rw [Json.isSome_encode]
    rcases hms with rfl | rfl <;> rfl
  have hrows : ∀ row ∈ [[Value.object withTags], [.object withoutTags]], ∀ cell ∈ row.head?,
      cell.IsCell := by
    simp only [List.mem_cons, List.not_mem_nil, or_false, forall_eq_or_imp, forall_eq,
      List.head?_cons, Option.mem_some_iff, forall_eq']
    exact ⟨hencode _ (.inl rfl), hencode _ (.inr rfl)⟩
  have hids : ∀ document ∈ ((Filter.criteria .null).course
      [[.object withTags], [.object withoutTags]]).documents, finding.dialect.Identifies document :=
    List.forall_mem_cons.mpr ⟨⟨withTags, .str "x", [.literal "'x'"], rfl, rfl, rfl, rfl⟩,
      List.forall_mem_singleton.mpr ⟨withoutTags, .str "y", [.literal "'y'"], rfl, rfl, rfl, rfl⟩⟩
  have hlookups : List.Forall₂ (fun document (reply : Reply) => reply.BeginsWith document)
      (((Filter.criteria .null).course [[.object withTags],
        [.object withoutTags]]).documents.filter (·.holds "tags"))
      [⟨[[.object withTags]], none⟩] := .cons ⟨_, [], [], rfl, rfl⟩ .nil
  have hoffers : finding.Offers (.str "c") := by
    refine ⟨"c", rfl, by decide, fun c h => ?_⟩
    change none = some c at h
    cases h
  have hcompiles : ∀ v, Filter.criteria .null = .criteria v →
      ∃ condition, finding.dialect.whereClause v = .ok condition := by
    rintro _ ⟨⟩
    exact ⟨none, rfl⟩
  have hreplies : finding.script.replies =
      ⟨[[.object withTags], [.object withoutTags]], none⟩ :: ([⟨[[.object withTags]], none⟩] ++ []) :=
    rfl
  obtain ⟨table, made, searched, rounds, htrace, -, -, hr, hrounds⟩ :=
    run_resaves hu ⟨rfl, rfl, rfl⟩ hoffers hcompiles hreplies hrows hids hlookups
  obtain ⟨round, _, hround, ⟨⟩, rfl⟩ := List.forall₂_cons_left_iff.mp hrounds
  exact ⟨table, made ++ searched, round, by rw [htrace]; simp [finding, Store.ready], hr, hround⟩

/-- A connection whose database finds one document that holds nothing but its identifier. -/
def findingId : Store :=
  { Store.ready .pgsql with script := { replies := [⟨[[.object withoutTags]], none⟩] } }

/-- The identifier is no field like others. Where it is removed from a document, or is what a field is
renamed from, the document is not written over: what is left of it is added, under an identifier of its
own, and is counted all the same. -/
theorem run_adds_withoutId :
    findingId.dialect.Identifies (.object withoutTags) ∧
      ((Verb.removeField (.str "c") (.str "_id") (.criteria .null)).run.outcome findingId).1 =
        .ok (.integer 1) ∧
      (sentTexts .pgsql ((Verb.removeField (.str "c") (.str "_id") (.criteria .null)).run.outcome
        findingId).2.trace).drop 2 =
        ["SELECT \"document\" FROM \"c\"",
          "INSERT INTO \"c\" (\"document\") VALUES ('\x7b\"_id\":\"000000000000010002000000\"\x7d')"] ∧
      (sentTexts .pgsql ((Verb.renameField (.str "c") (.str "_id") (.str "a")
        (.criteria .null)).run.outcome findingId).2.trace).drop 2 =
        ["SELECT \"document\" FROM \"c\"",
          "INSERT INTO \"c\" (\"document\") VALUES "
            ++ "('\x7b\"a\":\"y\",\"_id\":\"000000000000010002000000\"\x7d')"] := by
  refine ⟨⟨withoutTags, .str "y", [.literal "'y'"], rfl, rfl, rfl, rfl⟩, rfl, ?_, ?_⟩
  · decide +kernel
  · decide +kernel

end Verb

end DocStore
