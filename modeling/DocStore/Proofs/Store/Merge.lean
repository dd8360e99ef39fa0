import DocStore.Proofs.Json.Decoded
import DocStore.Proofs.Store.Drain
import DocStore.Proofs.Store.Insertion
import DocStore.Store.Verb

/-!
Documents written over. What is written over a document is the document with a
patch laid over it, under its own identifier: whatever the patch says, fields
that it does not name stay as they are, new ones come to the end, and the
statement is addressed to the identifier that it keeps. The documents of a
search are all read before the first of them is written over.
-/

namespace DocStore

/-! ### Merged documents -/

/-- A document with a patch laid over it, under its own identifier. Of a field that the patch sets more
than once the last value counts. -/
structure Members.IsMerged (document patch : Members) (id : Value) (merged : Members) : Prop where
  keys : merged.keys =
    document.keys ++ (patch.keys.filter fun key => key ∉ document.keys).eraseDups
  id : merged.get? idField = some id
  patched : ∀ key v, key ≠ idField → Members.get? patch.reverse key = some v →
    merged.get? key = some v
  kept : ∀ key, key ≠ idField → key ∉ patch.keys → merged.get? key = document.get? key

namespace Members

theorem get?_eq_none_of_not_mem {ms : Members} {key : Text} (h : key ∉ ms.keys) :
    ms.get? key = none := by
  cases hget : ms.get? key with
  | none => rfl
  | some v => exact absurd (mem_keys_of_get? hget) h

/-- What is laid over a document leaves its identifier in its place. -/
theorem isMerged_overlay {ms : Members} {id : Value} (hid : ms.get? idField = some id)
    (patch : Members) : ms.IsMerged patch id ((ms.overlay patch).insert idField id) where
  keys := by
    have hmem : idField ∈ (ms.overlay patch).keys := by
      rw [keys_overlay]
      exact List.mem_append_left _ (mem_keys_of_get? hid)
    rw [keys_insert_of_mem hmem, keys_overlay]
  id := by rw [get?_insert, if_pos rfl]
  patched key v hkey hv := by rw [get?_insert, if_neg hkey, get?_overlay, hv, Option.some_or]
  kept key hkey hpatch := by
    have hreverse : key ∉ Members.keys patch.reverse := by
      rw [keys, List.map_reverse, List.mem_reverse]
      exact hpatch
    rw [get?_insert, if_neg hkey, get?_overlay, get?_eq_none_of_not_mem hreverse, Option.none_or]

end Members

/-- A document that can be written over: an object whose identifier has a literal. -/
def Dialect.Addresses (d : Dialect) (document : Value) : Prop :=
  ∃ (ms : Members) (id : Value) (literal : Sql), document = .object ms ∧
    ms.get? idField = some id ∧ d.literal id = .ok literal

/-- A statement writes members over the document of an identifier. What it writes is one literal, which
denotes their JSON text. -/
def Dialect.WritesOver (d : Dialect) (table : Text) (id : Value) (ms : Members) (st : Statement) :
    Prop :=
  ∃ (t l : Text) (selector literal : Sql), Json.encode (.object ms) = some t ∧
    d.engine.lexis.lex l = some [.literal t] ∧ d.selector idField true = .ok selector ∧
    d.literal id = .ok literal ∧ st = .update table [.literal l] selector literal

/-- A statement writes a document, with a patch laid over it, over what has its identifier. -/
def Dialect.Overwrites (d : Dialect) (table : Text) (patch : Members) (document : Value)
    (st : Statement) : Prop :=
  ∃ (ms merged : Members) (id : Value), document = .object ms ∧ ms.get? idField = some id ∧
    ms.IsMerged patch id merged ∧ d.WritesOver table id merged st

/-- Statements without rows, one after another: each is sent, and its cursor is closed. -/
inductive Changes : List Statement → List Event → Prop
  | nil : Changes [] []
  | cons (n : Nat) (st : Statement) {sts : List Statement} {es : List Event} (h : Changes sts es) :
    Changes (st :: sts) (.send n st :: .close n :: es)

namespace Action

variable {s : Store} {c : Nat}

/-- A statement without rows, where the database refuses nothing. -/
theorem ensures_change_works (hworks : s.Works) (st : Statement) :
    Ensures (change st) s fun r s' => (∃ v, r = .ok v) ∧ s'.script = (s.answer st).2 ∧
      ∃ n, s.Leads [.send n st, .close n] s' := by
  unfold change
  refine (ensures_send st).bind ?_ ?_
  · rintro p s₁ (⟨-, -, _, h⟩ | ⟨-, hs₁⟩)
    · cases h
    · obtain ⟨rfl, hscript⟩ := hs₁.answered p rfl
      rw [ensures_record_bind]
      have hclose : s₁.Leads [.close s.opened] { s₁ with trace := s₁.trace ++ [.close s.opened] } :=
        .of_eq rfl rfl rfl rfl rfl rfl
      exact ⟨⟨_, rfl⟩, hscript, s.opened, hs₁.leads.trans hclose⟩
  · rintro fault s₁ (⟨hclosed, -⟩ | ⟨-, hs₁⟩)
    · rw [hworks.isOpen] at hclosed
      cases hclosed
    · obtain ⟨_, h⟩ := hs₁.succeeds hworks.failure
      cases h

theorem isQuery_update (e : Engine) (table : Text) (document selector id : Sql) :
    isQuery ((Statement.update table document selector id).text e) = false := rfl

/-- Members with a JSON text are written over the document of an identifier by one statement. -/
theorem ensures_writeOver {x : Collection} {ms : Members} {id : Value} (hworks : s.Works)
    (hx : s.collections[c]? = some x) (hjson : (Json.encode (.object ms)).isSome)
    (hid : ∃ literal, s.dialect.literal id = .ok literal) :
    Ensures (writeOver c id ms) s fun r s' => r = .ok () ∧ s'.script = s.script ∧
      ∃ n st, s.Leads [.send n st, .close n] s' ∧ s.dialect.WritesOver x.table id ms st := by
  obtain ⟨literal, hliteral⟩ := hid
  obtain ⟨document, hdocument⟩ := hworks.exists_document hjson
  obtain ⟨t, l, ht, rfl, hl⟩ := s.literal_of_document hdocument
  obtain ⟨selector, hselector⟩ := Dialect.exists_selector_id hworks.quotesAll
  unfold writeOver
  refine ensures_bind_ok (outcome_collection hx) ?_
  have hstatement : (do
      let document ← s.dialect.document ms
      let selector ← s.dialect.selector idField true
      return Statement.update x.table document selector (← s.dialect.literal id)) =
      .ok (.update x.table [.literal l] selector literal) := by
    rw [hdocument, hselector, hliteral]
    rfl
  refine ensures_bind_ok (outcome_inDialect hstatement) ?_
  refine (ensures_change_works hworks _).bind ?_ ?_
  · rintro v s' ⟨-, hscript, n, hs'⟩
    rw [Store.answer, isQuery_update] at hscript
    exact ⟨rfl, hscript, n, _, hs', t, l, selector, literal, ht, hl, hselector, hliteral, rfl⟩
  · rintro fault s' ⟨⟨_, h⟩, -⟩
    cases h

/-- Documents that can be written over are written over in order, each by one statement, with a patch
that has a JSON text laid over them. -/
theorem ensures_overlayAll {table : Text} {patch : Value} {changes : Members}
    {documents : List Value} (hworks : s.Works)
    (htable : ∃ x : Collection, s.collections[c]? = some x ∧ x.table = table)
    (hpatch : Members.ofValue patch = .ok changes) (hchanges : (Json.encode (.object changes)).isSome)
    (haddressed : ∀ document ∈ documents, s.dialect.Addresses document)
    (hjson : ∀ document ∈ documents, (Json.encode document).isSome) :
    Ensures (overlayAll c patch documents) s fun r s' => r = .ok () ∧ s'.script = s.script ∧
      ∃ sts es, s.Leads es s' ∧ Changes sts es ∧
        List.Forall₂ (s.dialect.Overwrites table changes) documents sts := by
  induction documents generalizing s with
  | nil => exact ⟨rfl, rfl, [], [], .refl s, .nil, .nil⟩
  | cons document documents ih =>
    obtain ⟨⟨ms, id, literal, rfl, hid, hliteral⟩, haddressed⟩ := List.forall_mem_cons.mp haddressed
    obtain ⟨hms, hjson⟩ := List.forall_mem_cons.mp hjson
    obtain ⟨x, hx, rfl⟩ := htable
    have hmerged := Members.isMerged_overlay hid changes
    generalize hvalue : (ms.overlay changes).insert idField id = merged at hmerged
    have hencode : (Json.encode (.object merged)).isSome := by
      rw [Json.isSome_encode_object] at hms hchanges ⊢
      have hoverlay := Members.forall_mem_overlay (P := fun v => (Json.encode v).isSome) hms hchanges
      rw [← hvalue]
      exact Members.forall_mem_insert (P := fun v => (Json.encode v).isSome) _
        (hms _ (Members.mem_of_get? hid)) hoverlay
    have hoverlaid : overlaid patch (.object ms) = .ok (id, merged) := by
      rw [overlaid, hpatch, Value.fieldOf, hid, ← hvalue]
      rfl
    unfold overlayAll
    rw [hoverlaid, ofMisuse_ok, pure_bind]
    refine (ensures_writeOver hworks hx hencode ⟨literal, hliteral⟩).bind ?_ ?_
    · rintro _ s₁ ⟨-, hscript, n, st, hs₁, hst⟩
      obtain ⟨x', hx', -, htable⟩ := hs₁.tables c x hx
      refine (ih (hs₁.works hworks) ⟨x', hx', htable⟩ (by rwa [hs₁.dialect]) hjson).mono ?_
      rintro r s' ⟨hr, hscript', sts, es, hs', hsts, hover⟩
      rw [hs₁.dialect] at hover
      exact ⟨hr, hscript'.trans hscript, _, _, hs₁.trans hs', .cons n st hsts,
        .cons ⟨ms, merged, id, rfl, hid, hmerged, hst⟩ hover⟩
    · rintro fault s₁ ⟨h, -⟩
      cases h

end Action

/-! ### The documents of a search -/

theorem Course.mapM_ok (c : Course) : c.mapM .ok = c := by
  obtain ⟨vs, stop⟩ := c
  unfold mapM
  dsimp only
  induction vs with
  | nil => rfl
  | cons v vs ih =>
    rw [changed]
    dsimp only
    rw [ih]
    rfl

/-- Without a projection the documents come as they are selected. -/
theorem Filter.found_full (f : Filter) (options : FindOptions) (rows : List Row) :
    f.found { options with projection := none } rows = f.selected options rows :=
  (Course.mapM_ok _).trans (by cases f <;> rfl)

theorem Course.mem_ofRows {examine : Row → Except Misuse (Option Value)} {rows : List Row}
    {v : Value} (h : v ∈ (ofRows examine rows).documents) :
    ∃ row ∈ rows, examine row = .ok (some v) := by
  induction rows with
  | nil => cases h
  | cons row rows ih =>
    rw [ofRows] at h
    cases hrow : examine row with
    | error fault =>
      rw [hrow] at h
      cases h
    | ok found =>
      rw [hrow] at h
      cases found with
      | none =>
        obtain ⟨r, hr, hv⟩ := ih h
        exact ⟨r, List.mem_cons_of_mem _ hr, hv⟩
      | some u =>
        rcases List.mem_cons.mp h with rfl | h
        · exact ⟨row, List.mem_cons_self, hrow⟩
        · obtain ⟨r, hr, hv⟩ := ih h
          exact ⟨r, List.mem_cons_of_mem _ hr, hv⟩

theorem Filter.mem_course_of_mem_selected {f : Filter} {options : FindOptions} {rows : List Row}
    {v : Value} (h : v ∈ (f.selected options rows).documents) : v ∈ (f.course rows).documents := by
  cases f with
  | criteria w =>
    unfold selected at h
    dsimp only at h
    split at h
    · exact List.mem_of_mem_drop h
    · exact h
  | predicate selects =>
    unfold selected at h
    dsimp only at h
    cases hlimit : options.limit.filter (· ≠ 0) with
    | none =>
      rw [hlimit] at h
      exact List.mem_of_mem_drop h
    | some n =>
      rw [hlimit] at h
      exact List.mem_of_mem_drop (List.mem_of_mem_take h)

/-- The documents that a row gives have a JSON text, where its cell is as databases hand cells out. -/
theorem Filter.isSome_encode_of_examine {f : Filter} {row : Row} {v : Value}
    (hrow : ∀ cell ∈ row.head?, cell.IsCell) (h : f.examine row = .ok (some v)) :
    (Json.encode v).isSome := by
  cases row with
  | nil => cases h
  | cons cell rest =>
    obtain ⟨document, hdocument, h⟩ := exists_of_bind_ok h
    have hjson := isSome_encode_of_storedDocument (hrow cell rfl) hdocument
    cases f with
    | criteria w =>
      cases h
      exact hjson
    | predicate selects =>
      obtain ⟨b, -, h⟩ := exists_of_bind_ok h
      cases b with
      | true =>
        cases h
        exact hjson
      | false => cases h

theorem Filter.isSome_encode_of_mem_selected {f : Filter} {options : FindOptions} {rows : List Row}
    (hrows : ∀ row ∈ rows, ∀ cell ∈ row.head?, cell.IsCell) :
    ∀ v ∈ (f.selected options rows).documents, (Json.encode v).isSome := by
  intro v hv
  obtain ⟨row, hrow, hv⟩ := Course.mem_ofRows (Filter.mem_course_of_mem_selected hv)
  exact Filter.isSome_encode_of_examine (hrows row hrow) hv

namespace CollectionVerb

open DocStore.Action

/-- The documents that a search selects are overlaid with a patch. All of them are read, without a
projection, before anything is written; then one statement for each of them, in their order, writes it
with the patch laid over it under its own identifier; and the answer says whether there were any. Where
a row stops the reading, nothing is written. -/
theorem run_merges {s : Store} {c : Nat} {x : Collection} {f : Filter} {patch v : Value}
    {options : FindOptions} {changes : Members} {rows : List Row} (hworks : s.Works)
    (hx : s.collections[c]? = some x) (hname : x.table ≠ [])
    (hoptions : FindOptions.ofValue v = .ok (.ok options))
    (hcompiles : ∃ q, ((compile c f { options with projection := none }).outcome s).1 = .ok q)
    (hreply : (Store.nextReply s.script).1 = ⟨rows, none⟩)
    (hrows : ∀ row ∈ rows, ∀ cell ∈ row.head?, cell.IsCell)
    (hpatch : Members.ofValue patch = .ok changes)
    (hchanges : (Json.encode (.object changes)).isSome)
    (hids : ∀ document ∈ (f.selected options rows).documents, s.dialect.Addresses document) :
    Ensures ((updateMany f patch v).run c) s fun r s' =>
      ∃ made searched updates es, s'.trace = s.trace ++ (made ++ searched) ++ es ∧
        s.Prepares c made ∧
        Searches s.dialect x.table f { options with projection := none } rows searched ∧
        Changes updates es ∧
        match (f.selected options rows).stop with
        | some fault => r = .error (.misuse fault) ∧ updates = []
        | none => r = .ok (.truth !(f.selected options rows).documents.isEmpty) ∧
          List.Forall₂ (s.dialect.Overwrites x.table changes) (f.selected options rows).documents
            updates := by
  have hfull := f.found_full options rows
  show Ensures (do
    let options ← findOptions v
    return Answer.truth (← Action.updateMany c f patch options)) s _
  have hread : (findOptions v).outcome s = (.ok options, s) := by
    unfold findOptions
    rw [hoptions]
    rfl
  refine ensures_bind_ok hread ?_
  unfold Action.updateMany
  rw [bind_assoc]
  refine (ensures_find_searches hworks hx hname hcompiles hreply).bind ?_ ?_
  · rintro documents s₁ ⟨hdocuments, -, made, searched, hs₁, hmade, hsearched⟩
    rw [hfull] at hdocuments
    obtain ⟨hstop, rfl⟩ := Course.eq_of_result hdocuments.symm
    obtain ⟨x', hx', -, htable⟩ := hs₁.tables c x hx
    rw [bind_assoc]
    refine (ensures_overlayAll (hs₁.works hworks) ⟨x', hx', htable⟩ hpatch hchanges
      (by rwa [hs₁.dialect]) (Filter.isSome_encode_of_mem_selected hrows)).bind ?_ ?_
    · rintro _ s' ⟨-, -, updates, es, hs', hupdates, hover⟩
      rw [hs₁.dialect] at hover
      refine ⟨made, searched, updates, es, ?_, hmade, hsearched, hupdates, ?_⟩
      · show s'.trace = _
        rw [hs'.trace, hs₁.trace]
      · rw [hstop]
        exact ⟨rfl, hover⟩
    · rintro fault s' ⟨h, -⟩
      cases h
  · rintro fault s₁ ⟨hdocuments, -, made, searched, hs₁, hmade, hsearched⟩
    rw [hfull] at hdocuments
    obtain ⟨stop, hstop, rfl⟩ := Course.exists_stop_of_result hdocuments.symm
    refine ⟨made, searched, [], [], ?_, hmade, hsearched, .nil, ?_⟩
    · rw [hs₁.trace, List.append_nil]
    · rw [hstop]
      exact ⟨rfl, rfl⟩

/-- A document. -/
def stored : Members := [(idField, .str "x"), ("a", .int 1)]

/-- A patch that would give a document another identifier. -/
def otherId : Members := [(idField, .str "y"), ("b", .int 2)]

/-- A connection whose database answers the next query with that document. -/
def answering : Store :=
  { Store.ready .pgsql with script := { replies := [{ rows := [[.object stored]] }] } }

/-- What a projection leaves out is written all the same, and the identifier stays that of the
document. -/
theorem run_merges_keepsId :
    Ensures ((updateMany (.criteria .null) (.object otherId)
        (.object [("projection", .object [("b", .int 1)])])).run 0) answering fun r s' =>
      ∃ searched st es, s'.trace = searched ++ es ∧ Changes [st] es ∧ r = .ok (.truth true) ∧
        answering.dialect.Overwrites "c" otherId (.object stored) st := by
  have hoptions : FindOptions.ofValue (.object [("projection", .object [("b", .int 1)])]) =
      .ok (.ok { projection := some [("b", true)] }) := rfl
  have hcompiles : ∃ q, ((compile 0 (.criteria .null) {}).outcome answering).1 = .ok q := by
    have h : (compile 0 (.criteria .null) {}).outcome answering = _ :=
      outcome_compile_criteria (x := ⟨"c", "c", true⟩) rfl rfl rfl (by decide)
    exact ⟨_, congrArg Prod.fst h⟩
  have hencode (ms : Members) (hms : ms = stored ∨ ms = otherId) :
      (Json.encode (.object ms)).isSome := by
    rw [Json.isSome_encode]
    rcases hms with rfl | rfl <;> rfl
  have hrows : ∀ row ∈ [[Value.object stored]], ∀ cell ∈ row.head?, cell.IsCell := by
    rintro row (_ | ⟨_, ⟨⟩⟩) cell ⟨⟩
    exact hencode stored (.inl rfl)
  have hids : ∀ document ∈ ((Filter.criteria .null).selected { projection := some [("b", true)] }
      [[.object stored]]).documents, answering.dialect.Addresses document :=
    List.forall_mem_singleton.mpr ⟨stored, .str "x", [.literal "'x'"], rfl, rfl, rfl⟩
  obtain ⟨made, searched, updates, es, htrace, -, -, hupdates, hr, hover⟩ := run_merges
    (x := ⟨"c", "c", true⟩) ⟨rfl, rfl, rfl⟩ rfl (by decide) hoptions hcompiles rfl hrows
    (show Members.ofValue (.object otherId) = .ok otherId from rfl) (hencode otherId (.inr rfl)) hids
  obtain ⟨st, _, hst, ⟨⟩, rfl⟩ := List.forall₂_cons_left_iff.mp hover
  exact ⟨made ++ searched, st, es, htrace, hupdates, hr, hst⟩

end CollectionVerb

end DocStore
