import DocStore.Proofs.Store.Resave

/-!
Saving a document. It is added where it has no identifier or where nothing is
found under it; otherwise it takes the place of what is found, or is laid over
it, under the identifier of what is found. An engine that compares identifiers
as texts finds the document of `"1"` under `1`; so what a document is saved as
is not always what the caller is given back.
-/

namespace DocStore

/-! ### Statements that write -/

/-- Whether a text is that of a statement that writes documents. -/
def isWrite (t : Text) : Bool := isInsert t || t.startsWith "UPDATE" || t.startsWith "DELETE"

theorem IsCreate.isWrite {t : Text} (h : IsCreate t) : isWrite t = false := by
  obtain ⟨rest, rfl⟩ := h
  rfl

theorem isWrite_of_select {t : Text} (h : ("SELECT" : Text) <+: t) : isWrite t = false := by
  obtain ⟨rest, rfl⟩ := h
  rfl

/-- Between two stores, these are the statements sent that write documents. -/
def Store.Writes (s s' : Store) (sts : List Statement) : Prop :=
  ∃ es, s.Leads es s' ∧ (sentTexts s.engine es).filter isWrite = sts.map (Statement.text s.engine)

namespace Store

variable {s s' s'' : Store} {es : List Event} {sts sts' : List Statement}

theorem Writes.leads (h : s.Writes s' sts) : ∃ es, s.Leads es s' := h.imp fun _ => And.left

theorem Writes.trans (h : s.Writes s' sts) (h' : s'.Writes s'' sts') : s.Writes s'' (sts ++ sts') := by
  obtain ⟨es, hs, hes⟩ := h
  obtain ⟨es', hs', hes'⟩ := h'
  rw [hs.engine] at hes'
  refine ⟨es ++ es', hs.trans hs', ?_⟩
  rw [sentTexts_append, List.filter_append, hes, hes', List.map_append]

theorem Leads.writesNothing (hs : s.Leads es s') (h : ∀ t ∈ sentTexts s.engine es, isWrite t = false) :
    s.Writes s' [] :=
  ⟨es, hs, List.filter_eq_nil_iff.mpr fun t ht => Bool.eq_false_iff.mp (h t ht)⟩

/-- Nothing is written while a collection is prepared, nor by a query after that. -/
theorem Leads.writesNothing_of_prepares {c : Nat} {made asked : List Event} {st : Statement}
    (hs : s.Leads (made ++ asked) s') (hmade : s.Prepares c made)
    (hasked : sentStatements asked = [st]) (hselect : ("SELECT" : Text) <+: st.text s.engine) :
    s.Writes s' [] := by
  refine hs.writesNothing ?_
  rw [sentTexts_append]
  refine List.forall_mem_append.mpr ⟨fun t ht => (hmade.creates t ht).isWrite, ?_⟩
  rw [sentTexts_eq, hasked]
  exact List.forall_mem_singleton.mpr (isWrite_of_select hselect)

/-- Statements without rows that all write are what is written. -/
theorem Leads.writes (hs : s.Leads es s') (hchanges : Changes sts es)
    (hwrite : ∀ st ∈ sts, isWrite (st.text s.engine) = true) : s.Writes s' sts := by
  refine ⟨es, hs, ?_⟩
  clear hs
  induction hchanges with
  | nil => rfl
  | @cons n st sts es _ ih =>
    obtain ⟨hst, hsts⟩ := List.forall_mem_cons.mp hwrite
    show (st.text s.engine :: sentTexts s.engine es).filter isWrite = _
    rw [List.filter_cons_of_pos hst, ih hsts]
    rfl

end Store

/-- A statement adds a document: what it adds is one literal, which denotes the JSON text. -/
def Dialect.Inserts (d : Dialect) (table : Text) (ms : Members) (st : Statement) : Prop :=
  ∃ t l : Text, Json.encode (.object ms) = some t ∧ d.engine.lexis.lex l = some [.literal t] ∧
    st = .insert table [[.literal l]]

theorem Dialect.WritesOver.isWrite {d : Dialect} {table : Text} {id : Value} {ms : Members}
    {st : Statement} (h : d.WritesOver table id ms st) (e : Engine) : isWrite (st.text e) = true := by
  obtain ⟨t, l, selector, literal, -, -, -, -, rfl⟩ := h
  rfl

theorem Dialect.Overwrites.isWrite {d : Dialect} {table : Text} {patch : Members} {document : Value}
    {st : Statement} (h : d.Overwrites table patch document st) (e : Engine) :
    isWrite (st.text e) = true := by
  obtain ⟨ms, merged, id, -, -, -, hst⟩ := h
  exact hst.isWrite e

/-- A reply gives documents: it can be read to its end, and each of its rows holds one of them, which
can be written over. -/
structure Reply.Gives (reply : Reply) (d : Dialect) (documents : List Value) : Prop where
  unrefused : reply.refusal = none
  rows : List.Forall₂ (fun row document =>
    ∃ cell rest, row = cell :: rest ∧ storedDocument cell = .ok document) reply.rows documents
  addressed : ∀ document ∈ documents, d.Addresses document
  encoded : ∀ document ∈ documents, (Json.encode document).isSome

namespace Action

variable {s : Store} {c : Nat} {x : Collection} {ms : Members} {v : Value} {documents : List Value}

/-! ### Looking up -/

section

variable (hworks : s.Works) (hx : s.collections[c]? = some x) (hname : x.table ≠ [])

include hworks hx hname

/-- Where nothing is found under an identifier, there is no first document. -/
theorem ensures_findOne_nothing (hliteral : ∃ literal, s.dialect.literal v = .ok literal)
    (hreply : (Store.nextReply s.script).1 = {}) :
    Ensures (findOne c (withIdOf v) {}) s fun r s' => r = .ok .null ∧
      s'.script = (Store.nextReply s.script).2 ∧ s.Writes s' [] := by
  obtain ⟨test, -, hcompiled⟩ := exists_compile_withIdOf hworks hx hliteral
  refine ensures_bind_ok hcompiled ?_
  unfold Documents.first Documents.next
  rw [bind_assoc]
  refine (ensures_opened_asks hworks ⟨x, hx, hname⟩ (Statement.prefix_select ..)).bind ?_ ?_
  · rintro _ s₁ ⟨cursor, made, ⟨⟩, hs₁, hmade, hscript⟩
    rw [hreply]
    have hread : s₁.Leads [.fetch cursor false, .close cursor] { s₁ with
      trace := s₁.trace ++ [.fetch cursor false] ++ [.close cursor] } :=
      .of_eq (List.append_assoc ..) rfl rfl rfl rfl rfl
    have hs' := hs₁.trans hread
    rw [List.append_assoc] at hs'
    exact ⟨rfl, hscript, hs'.writesNothing_of_prepares hmade rfl (Statement.prefix_select ..)⟩
  · rintro fault s₁ ⟨cursor, made, h, -⟩
    cases h

/-- The first document that a reply gives is what is found under an identifier. -/
theorem ensures_findOne_gives (hliteral : ∃ literal, s.dialect.literal v = .ok literal)
    (hgives : (Store.nextReply s.script).1.Gives s.dialect documents) :
    Ensures (findOne c (withIdOf v) {}) s fun r s' => r = .ok (documents.headD .null) ∧
      s'.script = (Store.nextReply s.script).2 ∧ s.Writes s' [] := by
  cases documents with
  | nil =>
    have hrows : (Store.nextReply s.script).1.rows = [] := List.forall₂_nil_right_iff.mp hgives.rows
    refine ensures_findOne_nothing hworks hx hname hliteral ?_
    rcases hreply : (Store.nextReply s.script).1 with ⟨rows, refusal⟩
    rw [hreply] at hgives hrows
    obtain rfl : rows = [] := hrows
    obtain rfl : refusal = none := hgives.unrefused
    rfl
  | cons document rest =>
    obtain ⟨row, rows, ⟨cell, others, rfl, hcell⟩, -, hrows⟩ :=
      List.forall₂_cons_right_iff.mp hgives.rows
    refine (ensures_findOne_first hworks hx hname hliteral ⟨cell, others, rows, hrows, hcell⟩).mono ?_
    rintro r s' ⟨hr, hscript, made, cursor, lookup, hmade, hs', ⟨_, _, -, hlookup⟩, -⟩
    refine ⟨hr, hscript, hs'.writesNothing_of_prepares hmade rfl ?_⟩
    rw [hlookup]
    exact ⟨_, rfl⟩

/-- All documents that a reply gives are what a search for an identifier finds. -/
theorem ensures_find_gives (hliteral : ∃ literal, s.dialect.literal v = .ok literal)
    (hgives : (Store.nextReply s.script).1.Gives s.dialect documents) :
    Ensures (find c (withIdOf v) { limit := some 1 }) s fun r s' => r = .ok documents ∧
      s'.script = (Store.nextReply s.script).2 ∧ s.Writes s' [] := by
  obtain ⟨test, -, hcompiled⟩ := exists_compile_withIdOf hworks hx hliteral
  obtain ⟨hrefusal, hrows, -, -⟩ := hgives
  have hreply : (Store.nextReply s.script).1 = ⟨(Store.nextReply s.script).1.rows, none⟩ := by
    rw [← hrefusal]
  have hcourse : (withIdOf v).course (Store.nextReply s.script).1.rows = ⟨documents, none⟩ := by
    refine Course.ofRows_of_forall₂ (hrows.imp ?_)
    rintro row document ⟨cell, rest, rfl, hcell⟩
    show (do return some (← storedDocument cell)) = _
    rw [hcell]
    rfl
  refine (ensures_find_searches hworks hx hname ⟨_, congrArg Prod.fst hcompiled⟩ hreply).mono ?_
  rintro r s' ⟨hr, hscript, made, searched, hs', hmade, cursor, st, read, rfl, hreads, -, hread⟩
  have hfound : (withIdOf v).found { limit := some 1 } (Store.nextReply s.script).1.rows =
      ⟨documents, none⟩ :=
    ((withIdOf v).found_full { limit := some 1 } _).trans hcourse
  rw [hfound] at hr
  have hasked : sentStatements (.send cursor st :: read) = [st] := by
    show st :: sentStatements read = [st]
    rw [hread.sentStatements_eq]
  refine ⟨hr, hscript, hs'.writesNothing_of_prepares hmade hasked ?_⟩
  cases st with
  | select => exact Statement.prefix_select ..
  | _ => exact hreads.elim

/-! ### Writing -/

/-- A document that has a JSON text is added, and answered with its identifier. -/
theorem ensures_insertOne_writes (hjson : (Json.encode (.object ms)).isSome) :
    Ensures (insertOne c (.object ms)) s fun r s' => ∃ n st,
      r = .ok (.object (withId ms (s.identifiers n))) ∧ s.Writes s' [st] ∧
        s.dialect.Inserts x.table (withId ms (s.identifiers n)) st := by
  unfold insertOne
  refine (ensures_identified (.object ms)).bind ?_ ?_
  · rintro _ s₁ ⟨hs₁, ⟨_, _, h⟩ | ⟨_, ⟨⟩, _, n, ⟨⟩, rfl⟩⟩
    · cases h
    obtain ⟨x₁, hx₁, -, htable⟩ := hs₁.tables c x hx
    have hserves : s₁.Serves c := ⟨x₁, hx₁, htable ▸ hname⟩
    unfold insertMembers
    rw [bind_assoc]
    refine (ensures_ensureTable_prepares (hs₁.works hworks) hserves).bind ?_ ?_
    · rintro _ s₂ ⟨-, -, made, hs₂, hmade⟩
      have hleads := hs₁.trans hs₂
      obtain ⟨x₂, hx₂, -, htable₂⟩ := hleads.tables c x hx
      obtain ⟨sql, hsql⟩ := (hleads.works hworks).exists_document
        ((isSome_encode_withId ms (s.identifiers n)).trans hjson)
      obtain ⟨t, l, ht, rfl, hl⟩ := Store.literal_of_document hsql
      rw [bind_assoc]
      refine ensures_bind_ok (outcome_collection hx₂) ?_
      have hliterals : [withId ms (s.identifiers n)].mapM s₂.dialect.document = .ok [[.literal l]] := by
        rw [List.mapM_cons, hsql]
        rfl
      rw [bind_assoc]
      refine ensures_bind_ok (outcome_inDialect hliterals) ?_
      rw [bind_assoc]
      refine (ensures_change_works (hleads.works hworks) _).bind ?_ ?_
      · rintro _ s' ⟨-, -, k, hs'⟩
        have hnothing : s.Writes s₂ [] :=
          hleads.writesNothing fun t ht => (hmade.creates t (by rwa [hs₁.engine])).isWrite
        refine ⟨n, _, rfl, hnothing.trans (hs'.writes (.cons k _ .nil) ?_), t, l, ht, ?_, ?_⟩
        · exact List.forall_mem_singleton.mpr rfl
        · rwa [hleads.engine] at hl
        · rw [htable₂]
      · rintro fault s' ⟨⟨_, h⟩, -⟩
        cases h
    · rintro fault s₂ ⟨h, -⟩
      cases h
  · rintro fault s₁ ⟨-, ⟨_, h, -⟩ | ⟨_, h, -⟩⟩
    · cases h
    · cases h

/-- A document takes the place of the first one that is found under an identifier, and gets the
identifier of that one. Nothing is written where none is found. -/
theorem ensures_replaceOne_writes (hliteral : ∃ literal, s.dialect.literal v = .ok literal)
    (hjson : (Json.encode (.object ms)).isSome)
    (hgives : (Store.nextReply s.script).1.Gives s.dialect documents) :
    Ensures (replaceOne c (withIdOf v) (.object ms)) s fun r s' => ∃ sts,
      r = .ok !documents.isEmpty ∧ s.Writes s' sts ∧ (documents = [] → sts = []) ∧
        ∀ first rest, documents = first :: rest → ∃ (found : Members) (id : Value) (st : Statement),
          first = .object found ∧ found.get? idField = some id ∧
            s.dialect.WritesOver x.table id (ms.insert idField id) st ∧ sts = [st] := by
  unfold replaceOne
  refine (ensures_findOne_gives hworks hx hname hliteral hgives).bind ?_ ?_
  · rintro _ s₁ ⟨⟨⟩, -, hnothing⟩
    obtain ⟨es, hs₁⟩ := hnothing.leads
    cases documents with
    | nil => exact ⟨[], rfl, hnothing, fun _ => rfl, fun _ _ h => absurd h.symm (List.cons_ne_nil _ _)⟩
    | cons first rest =>
      obtain ⟨found, id, literal, rfl, hfound, hid⟩ := hgives.addressed _ List.mem_cons_self
      obtain ⟨x', hx', -, htable⟩ := hs₁.tables c x hx
      have hreplacing : replacing (.object ms) (.object found) = .ok (id, ms.insert idField id) := by
        show (do
          let id ← (Value.object found).fieldOf idField
          return (id, ms.insert idField id)) = _
        rw [Value.fieldOf, hfound]
        rfl
      have hencoded : (Json.encode (.object (ms.insert idField id))).isSome := by
        have hfirst := Json.isSome_encode_object.mp (hgives.encoded _ List.mem_cons_self)
        rw [Json.isSome_encode_object] at hjson ⊢
        exact Members.forall_mem_insert (P := fun v => (Json.encode v).isSome) _
          (hfirst _ (Members.mem_of_get? hfound)) hjson
      rw [List.headD_cons, hreplacing, ofMisuse_ok, pure_bind]
      show Ensures (do writeOver c id (ms.insert idField id); return true) s₁ _
      refine (ensures_writeOver (hs₁.works hworks) hx' hencoded
        ⟨literal, by rwa [hs₁.dialect]⟩).bind ?_ ?_
      · rintro _ s' ⟨-, -, n, st, hs', hst⟩
        rw [hs₁.dialect, htable] at hst
        refine ⟨[st], rfl, hnothing.trans (hs'.writes (.cons n st .nil) ?_), ?_, ?_⟩
        · exact List.forall_mem_singleton.mpr (hst.isWrite _)
        · exact fun h => absurd h (List.cons_ne_nil _ _)
        · rintro _ _ ⟨⟩
          exact ⟨found, id, st, rfl, hfound, hst, rfl⟩
      · rintro fault s' ⟨h, -⟩
        cases h
  · rintro fault s₁ ⟨h, -⟩
    cases h

/-- A document is laid over each one that is found under an identifier, by one statement. -/
theorem ensures_updateOne_writes (hliteral : ∃ literal, s.dialect.literal v = .ok literal)
    (hjson : (Json.encode (.object ms)).isSome)
    (hgives : (Store.nextReply s.script).1.Gives s.dialect documents) :
    Ensures (updateOne c (withIdOf v) (.object ms)) s fun r s' => r = .ok !documents.isEmpty ∧
      s'.script = (Store.nextReply s.script).2 ∧ ∃ sts, s.Writes s' sts ∧
        List.Forall₂ (s.dialect.Overwrites x.table ms) documents sts := by
  unfold updateOne updateMany
  refine (ensures_find_gives hworks hx hname hliteral hgives).bind ?_ ?_
  · rintro _ s₁ ⟨⟨⟩, hscript, hnothing⟩
    obtain ⟨es, hs₁⟩ := hnothing.leads
    obtain ⟨x', hx', -, htable⟩ := hs₁.tables c x hx
    have haddressed : ∀ document ∈ documents, s₁.dialect.Addresses document := by
      rw [hs₁.dialect]
      exact hgives.addressed
    refine (ensures_overlayAll (hs₁.works hworks) ⟨x', hx', htable⟩ rfl hjson haddressed
      hgives.encoded).bind ?_ ?_
    · rintro _ s' ⟨-, hscript', sts, es', hs', hchanges, hover⟩
      rw [hs₁.dialect] at hover
      refine ⟨rfl, hscript'.trans hscript, sts, hnothing.trans (hs'.writes hchanges ?_), hover⟩
      have hboth := hover.flip.imp fun st document (hst : s.dialect.Overwrites x.table ms document st) =>
        And.intro (hst.isWrite s₁.engine) hst
      exact ((List.forall₂_and_left _ _).mp hboth).1
    · rintro fault s' ⟨h, -⟩
      cases h
  · rintro fault s₁ ⟨h, -⟩
    cases h

end

end Action

/-! ### Saving -/

/-- How a document is saved, when these documents are found under its identifier, and those under it
after that was written: the statements that write, and the answer. -/
inductive Dialect.Saves (d : Dialect) (identifiers : Nat → Text) (table : Text) (ms : Members) :
    Bool → List Value → List Value → List Statement → Value → Prop
  /-- A document is added, with an identifier if it has none, where nothing is found under the one that it
  has. The answer is what is added. -/
  | added {isCreate : Bool} {found later : List Value} {n : Nat} {st : Statement}
    (hnew : lacksId ms = true ∨ found = [])
    (hst : d.Inserts table (withId ms (identifiers n)) st) :
    Saves d identifiers table ms isCreate found later [st] (.object (withId ms (identifiers n)))
  /-- A document takes the place of the first one that is found, under the identifier of that one. The
  answer is the document as it was given. -/
  | replaced {first : Members} {rest later : List Value} {id : Value} {st : Statement}
    (hlacks : lacksId ms = false) (hid : first.get? idField = some id)
    (hst : d.WritesOver table id (ms.insert idField id) st) :
    Saves d identifiers table ms true (.object first :: rest) later [st] (.object ms)
  /-- A document is laid over each one that is found. The answer is the first one that is found then. -/
  | merged {found later : List Value} {sts : List Statement} (hlacks : lacksId ms = false)
    (hfound : found ≠ []) (hsts : List.Forall₂ (d.Overwrites table ms) found sts) :
    Saves d identifiers table ms false found later sts (later.headD (.object ms))

/-- What the lookups of a save find: the documents under the identifier of the document, and where that is
laid over some, those found after it. -/
structure Script.Finds (script : Script) (d : Dialect) (isCreate : Bool) (found later : List Value) :
    Prop where
  first : (Store.nextReply script).1.Gives d found
  second : isCreate = false → found ≠ [] →
    (Store.nextReply (Store.nextReply script).2).1.Gives d later

/-- A statement stores a document: it adds it, or writes it over another one. -/
def Dialect.Stores (d : Dialect) (table : Text) (ms : Members) (st : Statement) : Prop :=
  d.Inserts table ms st ∨ ∃ id, d.WritesOver table id ms st

namespace Dialect.Saves

variable {d : Dialect} {identifiers : Nat → Text} {table : Text} {ms : Members} {isCreate : Bool}
  {found later : List Value} {sts : List Statement} {answer : Value}
  (h : d.Saves identifiers table ms isCreate found later sts answer)

include h

/-- There is one statement, as long as the lookup finds no more than one document. -/
theorem exists_eq_singleton (hone : found.length ≤ 1) : ∃ st, sts = [st] := by
  cases h with
  | added => exact ⟨_, rfl⟩
  | replaced => exact ⟨_, rfl⟩
  | merged _ hfound hsts =>
    refine List.length_eq_one_iff.mp (Nat.le_antisymm ?_ ?_)
    · rwa [← hsts.length_eq]
    · rw [← hsts.length_eq]
      exact List.length_pos_iff.mpr hfound

/-- What is added is the answer, and what takes the place of a document that has the same identifier. -/
theorem exists_stores (hsame : lacksId ms = true ∨ found = [] ∨ isCreate = true ∧
    ∀ first ∈ found.head?, first.fieldOf idField = (Value.object ms).fieldOf idField) :
    ∃ stored st, answer = .object stored ∧ sts = [st] ∧ d.Stores table stored st := by
  cases h with
  | added _ hst => exact ⟨_, _, rfl, rfl, .inl hst⟩
  | @replaced first rest later id st hlacks hid hst =>
    rcases hsame with hlacks' | ⟨⟨⟩⟩ | ⟨-, hsame⟩
    · cases hlacks.symm.trans hlacks'
    · have hfirst := hsame _ rfl
      rw [Value.fieldOf, hid] at hfirst
      have hget : ms.get? idField = some id := by
        obtain ⟨own, hown, -⟩ := hasId_iff.mp hlacks
        rw [Value.fieldOf, hown] at hfirst
        cases hfirst
        exact hown
      rw [Members.insert_of_get? hget] at hst
      exact ⟨ms, st, rfl, rfl, .inr ⟨id, hst⟩⟩
  | merged hlacks hfound =>
    rcases hsame with hlacks' | hnone | ⟨⟨⟩, -⟩
    · cases hlacks.symm.trans hlacks'
    · exact absurd hnone hfound

end Dialect.Saves

/-- Between two stores a document was saved, and nothing else was written. -/
def Store.Saved (s : Store) (ms : Members) (isCreate : Bool) (found later : List Value)
    (r : Except Fault Value) (s' : Store) : Prop :=
  ∃ table sts answer, r = .ok answer ∧ s.Writes s' sts ∧
    s.dialect.Saves s.identifiers table ms isCreate found later sts answer

/-- Nothing was written before. -/
theorem Store.Saved.after {s s₁ s' : Store} {ms : Members} {isCreate : Bool} {found later : List Value}
    {r : Except Fault Value} (hs : s.Writes s₁ []) (h : s₁.Saved ms isCreate found later r s') :
    s.Saved ms isCreate found later r s' := by
  obtain ⟨es, hleads⟩ := hs.leads
  obtain ⟨table, sts, answer, hr, hs', hsaves⟩ := h
  rw [hleads.dialect, hleads.identifiers] at hsaves
  exact ⟨table, sts, answer, hr, hs.trans hs', hsaves⟩

namespace Action

variable {s : Store} {c : Nat} {t : Text} {ms : Members} {v : Value} {isCreate : Bool}
  {found later : List Value}

/-- A document is added, where nothing was written before and nothing is found under its identifier. -/
theorem ensures_insertOne_saved {s₁ : Store} (hs₁ : s.Writes s₁ []) (hworks : s.Works)
    (hserves : s.Serves c) (hjson : (Json.encode (.object ms)).isSome)
    (hnew : lacksId ms = true ∨ found = []) :
    Ensures (insertOne c (.object ms)) s₁ (s.Saved ms isCreate found later) := by
  obtain ⟨es, hleads⟩ := hs₁.leads
  obtain ⟨x, hx, hname⟩ := hleads.serves hserves
  refine (ensures_insertOne_writes (hleads.works hworks) hx hname hjson).mono ?_
  rintro r s' ⟨n, st, hr, hs', hst⟩
  have hadded : s₁.Saved ms isCreate found later r s' := ⟨_, _, _, hr, hs', .added hnew hst⟩
  exact hadded.after hs₁

/-- The answer to a document that was laid over others is the first one that is found then. -/
theorem answer_eq_headD {d : Dialect} {documents : List Value} (v : Value)
    (haddressed : ∀ document ∈ documents, d.Addresses document) :
    (if (documents.headD .null).isTruthy then documents.headD .null else v) = documents.headD v := by
  cases documents with
  | nil => rfl
  | cons document rest =>
    obtain ⟨ms, id, literal, rfl, hid, -⟩ := haddressed _ List.mem_cons_self
    cases ms with
    | nil => cases hid
    | cons m ms => rfl

section

variable (hworks : s.Works) (hserves : s.Serves c) (hjson : (Json.encode (.object ms)).isSome)
  (hlacks : lacksId ms = false) (hliteral : ∃ literal, s.dialect.literal v = .ok literal)

include hworks hserves hjson hlacks hliteral

/-- A document that is to be as it is given takes the place of what is found under an identifier, or is
added. -/
theorem ensures_replaceOne_saved (hfound : (Store.nextReply s.script).1.Gives s.dialect found) :
    Ensures (do
      if ← replaceOne c (withIdOf v) (.object ms) then return .object ms
      else insertOne c (.object ms)) s (s.Saved ms true found later) := by
  obtain ⟨x, hx, hname⟩ := id hserves
  refine (ensures_replaceOne_writes hworks hx hname hliteral hjson hfound).bind ?_ ?_
  · rintro _ s₁ ⟨sts, ⟨⟩, hs₁, hnone, hwritten⟩
    cases found with
    | nil =>
      obtain rfl := hnone rfl
      exact ensures_insertOne_saved hs₁ hworks hserves hjson (.inr rfl)
    | cons first rest =>
      obtain ⟨ms₁, id, st, rfl, hid, hst, rfl⟩ := hwritten first rest rfl
      exact ⟨_, _, _, rfl, hs₁, .replaced hlacks hid hst⟩
  · rintro fault s₁ ⟨_, h, -⟩
    cases h

/-- Any other document is laid over what is found under an identifier, or is added. -/
theorem ensures_updateOne_saved (hfinds : s.script.Finds s.dialect false found later) :
    Ensures (do
      if ← updateOne c (withIdOf v) (.object ms) then
        let merged ← findOne c (withIdOf v) {}
        return if merged.isTruthy then merged else .object ms
      else insertOne c (.object ms)) s (s.Saved ms false found later) := by
  obtain ⟨x, hx, hname⟩ := id hserves
  refine (ensures_updateOne_writes hworks hx hname hliteral hjson hfinds.first).bind ?_ ?_
  · rintro _ s₁ ⟨⟨⟩, hscript, sts, hs₁, hover⟩
    cases found with
    | nil =>
      cases hover
      exact ensures_insertOne_saved hs₁ hworks hserves hjson (.inr rfl)
    | cons first rest =>
      obtain ⟨es, hleads⟩ := hs₁.leads
      have hlater := hfinds.second rfl (List.cons_ne_nil _ _)
      rw [← hscript, ← hleads.dialect] at hlater
      rw [← hleads.dialect] at hliteral
      obtain ⟨x₁, hx₁, hname₁⟩ := hleads.serves hserves
      refine (ensures_findOne_gives (hleads.works hworks) hx₁ hname₁ hliteral hlater).bind ?_ ?_
      · rintro _ s' ⟨⟨⟩, -, hs'⟩
        have hwrites := hs₁.trans hs'
        rw [List.append_nil] at hwrites
        exact ⟨_, sts, _, congrArg Except.ok (answer_eq_headD _ hlater.addressed), hwrites,
          .merged hlacks (List.cons_ne_nil _ _) hover⟩
      · rintro fault s' ⟨h, -⟩
        cases h
  · rintro fault s₁ ⟨h, -⟩
    cases h

end

/-- A document is saved in a collection that is obtained first. -/
theorem ensures_save_saved (hworks : s.Works) (hoffers : s.Offers (.str t))
    (hjson : (Json.encode (.object ms)).isSome)
    (hid : lacksId ms = false → s.dialect.Addresses (.object ms))
    (hfinds : lacksId ms = false → s.script.Finds s.dialect isCreate found later) :
    Ensures (save (.str t) (.object ms) isCreate) s (s.Saved ms isCreate found later) := by
  obtain ⟨_, ⟨⟩, hname, hserves⟩ := hoffers
  unfold save
  refine (ensures_obtain_obtained hworks hname hserves).bind ?_ ?_
  · rintro c s₁ ⟨_, x, made, ⟨⟩, hobtained⟩
    have hworks₁ := hobtained.leads.works hworks
    have hserves₁ : s₁.Serves c := ⟨x, hobtained.made, hobtained.named⟩
    have hnothing : s.Writes s₁ [] :=
      hobtained.leads.writesNothing fun text ht => (hobtained.creates text ht).isWrite
    refine Ensures.mono (P := s₁.Saved ms isCreate found later) ?_ fun _ _ h => h.after hnothing
    cases hlacks : lacksId ms with
    | true =>
      simp only [hlacks, if_true]
      exact ensures_insertOne_saved ((Store.Leads.refl s₁).writesNothing nofun) hworks₁ hserves₁ hjson
        (.inl hlacks)
    | false =>
      obtain ⟨_, v, literal, ⟨⟩, hget, hliteral⟩ := hid hlacks
      have hfinds₁ := hfinds hlacks
      rw [← hobtained.leads.dialect] at hliteral hfinds₁
      rw [← hobtained.script] at hfinds₁
      simp only [hlacks, hget, Option.getD_some, Bool.false_eq_true, if_false]
      cases isCreate with
      | true =>
        exact ensures_replaceOne_saved hworks₁ hserves₁ hjson hlacks ⟨literal, hliteral⟩ hfinds₁.first
      | false =>
        exact ensures_updateOne_saved hworks₁ hserves₁ hjson hlacks ⟨literal, hliteral⟩ hfinds₁
  · rintro fault s₁ ⟨c, x, made, h, -⟩
    cases h

end Action

namespace Verb

/-- A document is saved by one statement, as long as the lookup under its identifier finds no more than
one. It is added where it has no identifier or nothing is found, else it takes the place of the first one
that is found, or is laid over all, under the identifiers of these. What is added is the answer; so is what
takes the place of a document with the same identifier, and of any other one the document as it was
given. -/
theorem run_saves {s : Store} {t : Text} {ms : Members} {isCreate : Bool} {found later : List Value}
    (hworks : s.Works) (hoffers : s.Offers (.str t)) (hjson : (Json.encode (.object ms)).isSome)
    (hid : lacksId ms = false → s.dialect.Addresses (.object ms))
    (hfinds : lacksId ms = false → s.script.Finds s.dialect isCreate found later) :
    Action.Ensures (save (.str t) (.object ms) isCreate).run s fun r s' => ∃ table sts answer,
      r = .ok (.document answer) ∧ s.Writes s' sts ∧
        s.dialect.Saves s.identifiers table ms isCreate found later sts answer ∧
        (found.length ≤ 1 → ∃ st, sts = [st]) ∧
        ((lacksId ms = true ∨ found = [] ∨ isCreate = true ∧
            ∀ first ∈ found.head?, first.fieldOf idField = (Value.object ms).fieldOf idField) →
          ∃ stored st, answer = .object stored ∧ sts = [st] ∧ s.dialect.Stores table stored st) := by
  show Action.Ensures (do
    let stored ← Action.save (.str t) (.object ms) isCreate
    return Answer.document stored) s _
  refine (Action.ensures_save_saved hworks hoffers hjson hid hfinds).bind ?_ ?_
  · rintro answer s' ⟨table, sts, _, ⟨⟩, hs', hsaves⟩
    exact ⟨table, sts, answer, rfl, hs', hsaves, hsaves.exists_eq_singleton, hsaves.exists_stores⟩
  · rintro fault s' ⟨_, _, _, h, -⟩
    cases h

/-- A document whose identifier is a number. -/
def numbered : Members := [(idField, .int 1), ("a", .int 2)]

/-- A connection whose database finds the document of a text under a number. -/
def matching : Store :=
  { Store.ready .pgsql with script := { replies := [{ rows := [[.object [(idField, .str "1")]]] }] } }

/-- What is written has the identifier that is found, and the answer has the one that was given. -/
theorem run_saves_numbered :
    Action.Ensures (save (.str "c") (.object numbered) true).run matching fun r s' => ∃ table st,
      r = .ok (.document (.object numbered)) ∧ matching.Writes s' [st] ∧
        matching.dialect.WritesOver table (.str "1") [(idField, .str "1"), ("a", .int 2)] st := by
  have hencode (ms : Members) (hms : ms = numbered ∨ ms = [(idField, .str "1")]) :
      (Json.encode (.object ms)).isSome := by
    rw [Json.isSome_encode]
    rcases hms with rfl | rfl <;> rfl
  have hgives : Reply.Gives { rows := [[.object [(idField, .str "1")]]] } matching.dialect
      [.object [(idField, .str "1")]] := by
    refine ⟨rfl, .cons ⟨_, _, rfl, rfl⟩ .nil, ?_, ?_⟩
    · exact List.forall_mem_singleton.mpr ⟨_, .str "1", [.literal "'1'"], rfl, rfl, rfl⟩
    · exact List.forall_mem_singleton.mpr (hencode _ (.inr rfl))
  obtain ⟨table, sts, answer, hr, hs', hsaves, -, -⟩ := @run_saves matching "c"
    numbered true [.object [(idField, .str "1")]] [] ⟨rfl, rfl, rfl⟩ ⟨"c", rfl, by decide, nofun⟩
    (hencode _ (.inl rfl)) (fun _ => ⟨numbered, .int 1, [.literal "'1'"], rfl, rfl, rfl⟩)
    fun _ => ⟨hgives, nofun⟩
  cases hsaves with
  | added hnew => exact hnew.elim nofun nofun
  | replaced hlacks hid hst =>
    cases hid
    exact ⟨table, _, hr, hs', hst⟩

/-- The one statement that writes does not store what is answered. -/
theorem run_save_answers_given :
    let (r, s') := (save (.str "c") (.object numbered) true).run.outcome matching
    r = .ok (.document (.object [(idField, .int 1), ("a", .int 2)])) ∧
      (sentTexts .pgsql s'.trace).filter isWrite =
        ["UPDATE \"c\" SET \"document\" = '\x7b\"_id\":\"1\",\"a\":2\x7d' WHERE "
          ++ "\"document\" #>> '\x7b\"_id\"\x7d' = '1'"] :=
  ⟨rfl, by decide +kernel⟩

end Verb

end DocStore
