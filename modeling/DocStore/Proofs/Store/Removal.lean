import DocStore.Proofs.Filter.Membership
import DocStore.Proofs.Store.Drain
import DocStore.Proofs.Store.Merge

/-!
What a predicate removes. The documents that a predicate selects are read out
first, and are then deleted by their ids, all of them by one statement, whose
condition is read as the list of the literals of just these ids. Nothing is
deleted when nothing is selected, when a row or the predicate stops the reading,
or when one of the documents has no id that can be quoted.
-/

namespace DocStore

namespace Dialect

/-- The id by which a document can be deleted: the document has it, and it has a literal. -/
def Targets (d : Dialect) (document id : Value) : Prop :=
  document.fieldOf idField = .ok id ∧ ∃ l, d.literal id = .ok l

/-- A text is read as the statement that deletes the documents of some ids from a table: it asks
whether the path of ids is among the literals of these, in their order. -/
def Removes (d : Dialect) (table : Text) (ids : List Value) (t : Text) : Prop :=
  ∃ selector condition, d.selector idField true = .ok selector ∧
    d.engine.lexis.lex t =
      some ([.word "DELETE", .word "FROM", .name table, .word "WHERE"] ++ condition) ∧
    Comparison.read condition = some (false, .among (selector.tokens d.engine.lexis)
      (ids.map (d.constant d.engine.hasEscapes)))

end Dialect

/-! ### The statement -/

namespace Statement

variable {e : Engine} {b : Bool}

/-- A statement that deletes under a condition is read to its end, and then the condition is. -/
theorem lex_delete (table : Text) {condition : Sql}
    (h : condition.IsBalanced (e.lexisWith b) false) :
    (e.lexisWith b).lex ((delete table (some ("WHERE " ++ condition))).text e) =
      some ([.word "DELETE", .word "FROM", .name table, .word "WHERE"] ++
        condition.tokens (e.lexisWith b)) := by
  have hclause : Dialect.ClauseTwins (e.lexisWith b) (some ("WHERE " ++ condition))
      (some ("WHERE " ++ condition)) := .some ((Sql.Twins.same h).headed (by cases e <;> rfl))
  have hsql : (delete table (some ("WHERE " ++ condition))).sql e =
      "DELETE FROM " ++ name e table ++ (Sql.code " " ++ ("WHERE " ++ condition)) := by
    simp [sql, withClauses, Sql.join, List.intercalate, Sql.code]
  have hname : (name e table).tokens (e.lexisWith b) = [.name table] := Sql.tokens_column table
  have hhead : Sql.tokens (e.lexisWith b) (Sql.code "DELETE FROM ") =
      [.word "DELETE", .word "FROM"] := by cases e <;> rfl
  have hblank : Sql.tokens (e.lexisWith b) (Sql.code " ") = [] := by cases e <;> rfl
  have hwhere : Sql.tokens (e.lexisWith b) (Sql.code "WHERE ") = [.word "WHERE"] := by
    cases e <;> rfl
  refine (delete_twins table table hclause).left.lex.1.trans (congrArg some ?_)
  rw [hsql]
  simp only [Sql.tokens_append, hname, hhead, hblank, hwhere]
  rfl

end Statement

namespace Dialect

variable {d : Dialect} {ids : List Value} {ls : List Sql} {selector : Sql}

/-- A statement with the literals of some ids is read as one with the ids. -/
theorem removes_of_literals (hd : d.QuotedBy d.engine.hasEscapes)
    (hselector : d.selector idField true = .ok selector) (hne : ids ≠ [])
    (hls : ids.mapM d.literal = .ok ls) (table : Text) :
    d.Removes table ids ((Statement.delete table
      (some ("WHERE " ++ (selector ++ (Sql.code " IN (" ++ (Sql.join ", " ls ++ ")")))))).text
        d.engine) := by
  -- The condition is the one that membership in the list is compiled to.
  have hmakes : d.Makes (selector ++ (Sql.code " IN (" ++ (Sql.join ", " ls ++ ")"))) :=
    ⟨_, _, _, operator_membership hselector false hne hls⟩
  have hbalanced := (hmakes.isUnit hd).toIsBalanced.loosen
  have hopen : Sql.tokens (d.engine.lexisWith d.engine.hasEscapes) (Sql.code " IN (") =
      [.word "IN", .sign '('] := by cases d.engine <;> rfl
  have hclose : Sql.tokens (d.engine.lexisWith d.engine.hasEscapes) (Sql.code ")") =
      [.sign ')'] := by cases d.engine <;> rfl
  have hread := Comparison.read_among (selector_isSubject hd hselector) false
    (items?_literals hd hne hls)
  refine ⟨selector, _, hselector, Statement.lex_delete table hbalanced, Eq.trans ?_ hread⟩
  rw [Sql.tokens_append, Sql.tokens_append, Sql.tokens_append, hopen, hclose]
  rfl

end Dialect

/-! ### What is deleted -/

namespace Dialect

variable {d : Dialect} {vs ids : List Value}

/-- The ids of documents that can be deleted, and their literals, are taken in order. -/
theorem mapM_of_targets (h : List.Forall₂ d.Targets vs ids) :
    (vs.mapM fun document => document.fieldOf idField) = .ok ids ∧
      ∃ ls, ids.mapM d.literal = .ok ls := by
  induction h with
  | nil => exact ⟨rfl, [], rfl⟩
  | cons hid _ ih =>
    obtain ⟨hfield, l, hl⟩ := hid
    obtain ⟨hfields, ls, hls⟩ := ih
    exact ⟨by rw [List.mapM_cons, hfield, hfields]; rfl,
      l :: ls, by rw [List.mapM_cons, hl, hls]; rfl⟩

theorem target_of_mem (h : List.Forall₂ d.Targets vs ids) {v : Value} (hv : v ∈ vs) :
    ∃ id, d.Targets v id := by
  obtain ⟨hfields, ls, hls⟩ := mapM_of_targets h
  obtain ⟨id, hid, hmem⟩ := exists_ok_of_mapM_ok hfields hv
  obtain ⟨l, hl, -⟩ := exists_ok_of_mapM_ok hls hmem
  exact ⟨id, hid, l, hl⟩

/-- Documents each of which can be deleted have a list of ids. -/
theorem exists_targets (h : ∀ v ∈ vs, ∃ id, d.Targets v id) :
    ∃ ids, List.Forall₂ d.Targets vs ids := by
  induction vs with
  | nil => exact ⟨[], .nil⟩
  | cons v vs ih =>
    obtain ⟨⟨id, hid⟩, hvs⟩ := List.forall_mem_cons.mp h
    obtain ⟨ids, hids⟩ := ih hvs
    exact ⟨id :: ids, .cons hid hids⟩

end Dialect

/-- What deleting by a predicate comes to, given what is read of the answer to its search, and the
statements that are sent after that. -/
structure Removal {α : Type} (d : Dialect) (table : Text) (found : Course) (done : α)
    (r : Except Fault α) (sts : List Statement) : Prop where
  /-- A row or the predicate has stopped the reading. -/
  stopped : ∀ fault, found.stop = some fault → r = .error (.misuse fault) ∧ sts = []
  /-- Nothing is selected. -/
  nothing : found.stop = none → found.documents = [] → r = .ok done ∧ sts = []
  /-- What is selected can be deleted, and one statement deletes it. -/
  removed : found.stop = none → found.documents ≠ [] →
    ∀ ids, List.Forall₂ d.Targets found.documents ids → r = .ok done ∧
      ∃ st, sts = [st] ∧ d.Removes table ids (st.text d.engine)
  /-- Something that is selected cannot be deleted. -/
  spared : found.stop = none → ∀ v ∈ found.documents, (∀ id, ¬ d.Targets v id) →
    (∃ fault, r = .error fault) ∧ sts = []

namespace Removal

variable {α β : Type} {d : Dialect} {table : Text} {found : Course} {done : α} {r : Except Fault α}
  {sts : List Statement} {vs ids : List Value}

theorem of_stop {fault : Misuse} (h : found.stop = some fault) :
    Removal d table found done (.error (.misuse fault)) [] where
  stopped _ hfault := by
    obtain rfl := Option.some.inj (h.symm.trans hfault)
    exact ⟨rfl, rfl⟩
  nothing hnone := by cases h.symm.trans hnone
  removed hnone := by cases h.symm.trans hnone
  spared hnone := by cases h.symm.trans hnone

theorem of_nil : Removal d table ⟨[], none⟩ done (.ok done) [] where
  stopped := nofun
  nothing _ _ := ⟨rfl, rfl⟩
  removed _ hne := absurd rfl hne
  spared := nofun

theorem of_targets {st : Statement} (h : List.Forall₂ d.Targets vs ids) (hne : vs ≠ [])
    (hst : d.Removes table ids (st.text d.engine)) :
    Removal d table ⟨vs, none⟩ done (.ok done) [st] where
  stopped := nofun
  nothing _ hnil := absurd hnil hne
  removed _ _ ids' h' := by
    have hids := (Dialect.mapM_of_targets h).1.symm.trans (Dialect.mapM_of_targets h').1
    obtain rfl := Except.ok.inj hids
    exact ⟨rfl, st, rfl, hst⟩
  spared _ v hv hnone := by
    obtain ⟨id, hid⟩ := Dialect.target_of_mem h hv
    exact absurd hid (hnone id)

theorem of_refused {v : Value} (hv : v ∈ vs) (hnone : ∀ id, ¬ d.Targets v id) (fault : Fault) :
    Removal d table ⟨vs, none⟩ done (.error fault) [] where
  stopped := nofun
  nothing _ hnil := by
    obtain rfl : vs = [] := hnil
    cases hv
  removed _ _ ids h := by
    obtain ⟨id, hid⟩ := Dialect.target_of_mem h hv
    exact absurd hid (hnone id)
  spared _ _ _ _ := ⟨⟨fault, rfl⟩, rfl⟩

/-- What is answered instead does not matter. -/
theorem map (f : α → β) (h : Removal d table found done r sts) :
    Removal d table found (f done) (r.map f) sts where
  stopped fault hstop := by
    obtain ⟨rfl, hsts⟩ := h.stopped fault hstop
    exact ⟨rfl, hsts⟩
  nothing hstop hnil := by
    obtain ⟨rfl, hsts⟩ := h.nothing hstop hnil
    exact ⟨rfl, hsts⟩
  removed hstop hne ids hids := by
    obtain ⟨rfl, hsts⟩ := h.removed hstop hne ids hids
    exact ⟨rfl, hsts⟩
  spared hstop v hv hnone := by
    obtain ⟨⟨fault, rfl⟩, hsts⟩ := h.spared hstop v hv hnone
    exact ⟨⟨fault, rfl⟩, hsts⟩

end Removal

namespace Action

variable {s : Store} {c : Nat} {x : Collection} {vs ids : List Value}

/-- Ids that have literals are sent in one statement. -/
theorem ensures_deleteIds (hworks : s.Works) (hx : s.collections[c]? = some x) (hne : ids ≠ [])
    {ls : List Sql} (hls : ids.mapM s.dialect.literal = .ok ls) :
    Ensures (deleteIds c ids) s fun r s' => r = .ok () ∧ ∃ n st, s.Leads [.send n st, .close n] s' ∧
      s.dialect.Removes x.table ids (st.text s.engine) := by
  obtain ⟨selector, hselector⟩ := Dialect.exists_selector_id hworks.quotesAll
  have hremoves := Dialect.removes_of_literals s.dialect_quotedBy hselector hne hls x.table
  have hliterals : s.dialect.literals ids = .ok (Sql.join ", " ls) := ok_bind hls _
  have hcondition : (do
      let selector ← s.dialect.selector idField true
      return "WHERE " ++ selector ++ " IN (" ++ (← s.dialect.literals ids) ++ ")") =
        (.ok ("WHERE " ++ (selector ++ (Sql.code " IN (" ++ (Sql.join ", " ls ++ ")")))) :
          Except Fault Sql) := by
    rw [hselector, hliterals]
    simp only [← List.append_assoc]
    rfl
  unfold deleteIds
  refine ensures_bind_ok (outcome_collection hx) (ensures_bind_ok (outcome_inDialect hcondition) ?_)
  refine (ensures_change_works hworks _).bind ?_ ?_
  · rintro v s' ⟨-, -, n, hs'⟩
    exact ⟨rfl, n, _, hs', hremoves⟩
  · rintro fault s' ⟨⟨_, h⟩, -⟩
    cases h

/-- Where one of the ids has no literal, nothing is sent. -/
theorem ensures_deleteIds_refused (hx : s.collections[c]? = some x) {id : Value} (hid : id ∈ ids)
    (hnone : ∀ l, s.dialect.literal id ≠ .ok l) :
    Ensures (deleteIds c ids) s fun r s' => (∃ fault, r = .error fault) ∧ s.Leads [] s' := by
  have hliterals (ls : Sql) : s.dialect.literals ids ≠ .ok ls := by
    intro h
    obtain ⟨ms, hms, -⟩ := exists_of_bind_ok h
    obtain ⟨l, hl, -⟩ := exists_ok_of_mapM_ok hms hid
    exact hnone l hl
  unfold deleteIds
  refine ensures_bind_ok (outcome_collection hx) ?_
  refine (ensures_inDialect _).bind ?_ ?_
  · rintro condition s' ⟨hcondition, -⟩
    obtain ⟨selector, -, hcondition⟩ := exists_of_bind_ok hcondition.symm
    obtain ⟨ls, hls, -⟩ := exists_of_bind_ok hcondition
    exact absurd hls (hliterals ls)
  · rintro fault s' ⟨-, hs'⟩
    exact ⟨⟨fault, rfl⟩, hs'⟩

/-- What is done with the documents that a predicate has selected. -/
theorem ensures_deleteFound (hworks : s.Works) (hx : s.collections[c]? = some x) :
    Ensures (do
      let ids ← ofMisuse (vs.mapM fun document => document.fieldOf idField)
      if !ids.isEmpty then deleteIds c ids) s fun r s' =>
        ∃ es, s.Leads es s' ∧ Removal s.dialect x.table ⟨vs, none⟩ () r (sentStatements es) := by
  by_cases hall : ∀ v ∈ vs, ∃ id, s.dialect.Targets v id
  · obtain ⟨ids, hids⟩ := Dialect.exists_targets hall
    obtain ⟨hfields, ls, hls⟩ := Dialect.mapM_of_targets hids
    rw [hfields, ofMisuse_ok, pure_bind]
    cases hids with
    | nil => exact ⟨[], .refl s, .of_nil⟩
    | cons hid hids =>
      refine (ensures_deleteIds hworks hx (List.cons_ne_nil _ _) hls).mono ?_
      rintro _ s' ⟨rfl, n, st, hs', hremoves⟩
      exact ⟨_, hs', .of_targets (.cons hid hids) (List.cons_ne_nil _ _) hremoves⟩
  · push Not at hall
    obtain ⟨v, hv, hnone⟩ := hall
    have hrefused : Ensures (do
        let ids ← ofMisuse (vs.mapM fun document => document.fieldOf idField)
        if !ids.isEmpty then deleteIds c ids) s fun r s' =>
          (∃ fault, r = .error fault) ∧ s.Leads [] s' := by
      cases hfields : vs.mapM fun document => document.fieldOf idField with
      | error fault => exact ⟨⟨_, rfl⟩, .refl s⟩
      | ok ids =>
        obtain ⟨id, hid, hmem⟩ := exists_ok_of_mapM_ok hfields hv
        have hsome : (!ids.isEmpty) = true := by
          simpa using List.ne_nil_of_mem hmem
        rw [ofMisuse_ok, pure_bind, if_pos hsome]
        exact ensures_deleteIds_refused hx hmem fun l hl => hnone id ⟨hid, l, hl⟩
    refine hrefused.mono ?_
    rintro _ s' ⟨⟨fault, rfl⟩, hs'⟩
    exact ⟨[], hs', .of_refused hv hnone fault⟩

/-- What is done to the library to find what a predicate selects among some rows: the whole table is
asked for, and the answer is read out, unless a row or the predicate stops that. -/
def Sifts (table : Text) (selects : Value → Except Misuse Bool) (rows : List Row)
    (es : List Event) : Prop :=
  ∃ cursor read, es = .send cursor (.select table none none none) :: read ∧
    ReadsOut cursor rows (((Filter.predicate selects).course rows).stop ≠ none) read

variable {selects : Value → Except Misuse Bool} {rows : List Row}

/-- Without a page and without an order, what is found is what the predicate selects. -/
theorem found_predicate (selects : Value → Except Misuse Bool) (rows : List Row) :
    (Filter.predicate selects).found {} rows = (Filter.predicate selects).course rows :=
  (Filter.predicate selects).found_full {} rows

theorem Searches.sifts {d : Dialect} {table : Text} {es : List Event}
    (h : Searches d table (.predicate selects) {} rows es) : Sifts table selects rows es := by
  obtain ⟨cursor, statement, read, rfl, hreads, htable, hread⟩ := h
  rw [found_predicate] at hread
  cases statement with
  | select =>
    obtain ⟨rfl, ⟨⟩, rfl⟩ := hreads
    cases htable
    exact ⟨cursor, read, rfl, hread.imp_right (And.imp_left (Or.resolve_left · nofun))⟩
  | _ => exact hreads.elim

/-- The documents that a predicate selects are deleted once the answer to its search was read out. -/
theorem ensures_deleteMany (hworks : s.Works) (hx : s.collections[c]? = some x)
    (hname : x.table ≠ []) (hreply : (Store.nextReply s.script).1 = ⟨rows, none⟩) :
    Ensures (deleteMany c (.predicate selects)) s fun r s' => ∃ made sifted removed,
      s.Leads (made ++ sifted ++ removed) s' ∧ (∀ t ∈ sentTexts s.engine made, IsCreate t) ∧
        Sifts x.table selects rows sifted ∧
        Removal s.dialect x.table ((Filter.predicate selects).course rows) () r
          (sentStatements removed) := by
  unfold deleteMany
  refine (ensures_ensureTable_prepares hworks ⟨x, hx, hname⟩).bind ?_ (by rintro _ _ ⟨h, -⟩; cases h)
  rintro _ s₁ ⟨-, hscript, es, hs₁, hes⟩
  obtain ⟨x₁, hx₁, -, htable⟩ := hs₁.tables c x hx
  have hcompiles : ((compile c (.predicate selects) {}).outcome s₁).1 =
      .ok (.ofPredicate c x₁.table selects none {}) := by
    rw [outcome_compile_predicate hx₁ rfl (by decide)]
  rw [← hscript] at hreply
  have hfind := ensures_find_searches (hs₁.works hworks) hx₁ (by rwa [htable]) ⟨_, hcompiles⟩ hreply
  rw [found_predicate, htable, hs₁.dialect] at hfind
  have hcreates {made : List Event} (h : s₁.Prepares c made) :
      ∀ t ∈ sentTexts s.engine (es ++ made), IsCreate t := by
    have hmade := h.creates
    rw [hs₁.engine] at hmade
    rw [sentTexts_append, List.forall_mem_append]
    exact ⟨hes.creates, hmade⟩
  generalize hfound : (Filter.predicate selects).course rows = found at hfind ⊢
  refine hfind.bind ?_ ?_
  · rintro vs s₂ ⟨hvs, -, made, sifted, hs₂, hmade, hsifted⟩
    have hleads := hs₁.trans hs₂
    rw [← List.append_assoc] at hleads
    obtain ⟨x₂, hx₂, -, htable₂⟩ := hleads.tables c x hx
    obtain ⟨documents, stop⟩ := found
    obtain ⟨rfl, rfl⟩ : stop = none ∧ documents = vs := Course.eq_of_result hvs.symm
    refine (ensures_deleteFound (hleads.works hworks) hx₂).mono ?_
    rintro r s' ⟨removed, hs', hremoval⟩
    rw [hleads.dialect, htable₂] at hremoval
    exact ⟨es ++ made, sifted, removed, hleads.trans hs', hcreates hmade, hsifted.sifts, hremoval⟩
  · rintro fault s₂ ⟨hfault, -, made, sifted, hs₂, hmade, hsifted⟩
    have hleads := hs₁.trans hs₂
    rw [← List.append_assoc, ← List.append_nil (es ++ made ++ sifted)] at hleads
    obtain ⟨stop, hstop, rfl⟩ := Course.exists_stop_of_result hfault.symm
    exact ⟨es ++ made, sifted, [], hleads, hcreates hmade, hsifted.sifts, .of_stop hstop⟩

end Action

namespace CollectionVerb

open DocStore.Action

/-- What a predicate selects among the rows of the answer is removed, and nothing else: after the
answer was read out one statement deletes the documents by the list of their ids; and none is sent
where nothing is selected, where the reading is stopped, or where something that is selected has no
id that can be quoted. -/
theorem run_removes {s : Store} {c : Nat} {x : Collection} {rows : List Row}
    (selects : Value → Except Misuse Bool) (hworks : s.Works) (hx : s.collections[c]? = some x)
    (hname : x.table ≠ []) (hreply : (Store.nextReply s.script).1 = ⟨rows, none⟩) :
    ∃ r s', ((deleteMany (.predicate selects)).run c).outcome s = (r, s') ∧
      ∃ made sifted removed, s'.trace = s.trace ++ (made ++ sifted ++ removed) ∧
        (∀ t ∈ sentTexts s.engine made, IsCreate t) ∧ Sifts x.table selects rows sifted ∧
        Removal s.dialect x.table ((Filter.predicate selects).course rows) (.truth true) r
          (sentStatements removed) := by
  have hrun : Ensures ((deleteMany (.predicate selects)).run c) s fun r s' =>
      ∃ made sifted removed, s.Leads (made ++ sifted ++ removed) s' ∧
        (∀ t ∈ sentTexts s.engine made, IsCreate t) ∧ Sifts x.table selects rows sifted ∧
        Removal s.dialect x.table ((Filter.predicate selects).course rows) (.truth true) r
          (sentStatements removed) := by
    refine (ensures_deleteMany hworks hx hname hreply).bind ?_ ?_
    · rintro _ s' ⟨made, sifted, removed, hs', hmade, hsifted, hremoval⟩
      exact ⟨made, sifted, removed, hs', hmade, hsifted, hremoval.map fun _ => Answer.truth true⟩
    · rintro fault s' ⟨made, sifted, removed, hs', hmade, hsifted, hremoval⟩
      exact ⟨made, sifted, removed, hs', hmade, hsifted, hremoval.map fun _ => Answer.truth true⟩
  obtain ⟨made, sifted, removed, hs', hmade, hsifted, hremoval⟩ := hrun
  exact ⟨_, _, rfl, made, sifted, removed, hs'.trace, hmade, hsifted, hremoval⟩

/-- Documents with numbers, of which the last one has no id. -/
def numberedRows : List Row :=
  [[.object [("_id", .str "x"), ("n", .int 1)]], [.object [("_id", .str "y'"), ("n", .int 2)]],
    [.object [("_id", .int 3), ("n", .int 2)]], [.object [("n", .int 4)]]]

/-- Whether a document has this number. -/
def hasNumber (n : Int) (document : Value) : Except Misuse Bool := do
  match ← document.fieldOf "n" with
  | .int m => return m = n
  | _ => return false

/-- Two of four documents are removed by one statement; the one without an id stays where it is. -/
theorem run_removes_numbered :
    (Store.replying numberedRows).Works ∧
    (Store.replying numberedRows).collections[0]? = some ⟨"c", "c", true⟩ ∧ ("c" : Text) ≠ [] ∧
    (Store.nextReply (Store.replying numberedRows).script).1 = ⟨numberedRows, none⟩ ∧
    (∃ s' before removed st, ((deleteMany (.predicate (hasNumber 2))).run 0).outcome
        (Store.replying numberedRows) = (.ok (.truth true), s') ∧
      s'.trace = before ++ removed ∧ sentStatements removed = [st] ∧
      (Store.replying numberedRows).dialect.Removes "c" [.str "y'", .int 3] (st.text .pgsql)) ∧
    ∃ s' fault, ((deleteMany (.predicate (hasNumber 4))).run 0).outcome
      (Store.replying numberedRows) = (.error fault, s') := by
  have hworks : (Store.replying numberedRows).Works := ⟨rfl, rfl, rfl⟩
  have hname : ("c" : Text) ≠ [] := by decide
  refine ⟨hworks, rfl, hname, rfl, ?_, ?_⟩
  · obtain ⟨r, s', hrun, made, sifted, removed, htrace, -, -, hremoval⟩ :=
      run_removes (hasNumber 2) hworks (c := 0) rfl hname rfl
    have hids : List.Forall₂ (Store.replying numberedRows).dialect.Targets
        ((Filter.predicate (hasNumber 2)).course numberedRows).documents [.str "y'", .int 3] :=
      .cons ⟨rfl, _, rfl⟩ (.cons ⟨rfl, _, rfl⟩ .nil)
    obtain ⟨rfl, st, hst, hremoves⟩ := hremoval.removed rfl (List.cons_ne_nil _ _) _ hids
    exact ⟨s', _, removed, st, hrun, htrace, hst, hremoves⟩
  · obtain ⟨r, s', hrun, made, sifted, removed, -, -, -, hremoval⟩ :=
      run_removes (hasNumber 4) hworks (c := 0) rfl hname rfl
    have hnone : ∀ id, ¬ (Store.replying numberedRows).dialect.Targets
        (.object [("n", .int 4)]) id := by
      rintro id ⟨⟨⟩, -⟩
    obtain ⟨⟨fault, rfl⟩, -⟩ := hremoval.spared rfl _ (List.mem_singleton_self _) hnone
    exact ⟨s', fault, hrun⟩

end CollectionVerb

end DocStore
