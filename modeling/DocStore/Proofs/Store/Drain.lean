import DocStore.Proofs.Store.Page

/-!
Answers that are read out. All documents of a search are read before anything
else is done: the rows of its answer are fetched one by one up to their end, or
as many as its page needs, and the cursor is closed. What comes are the
documents that the search selects among the rows, and the next reply of the
database is still the one after the answer.
-/

namespace DocStore

/-- The documents that a search selects among the rows of its answer. The page of criteria that has an
end was cut by the database. -/
def Filter.selected (f : Filter) (options : FindOptions) (rows : List Row) : Course :=
  match f with
  | .criteria _ =>
    if options.limit.getD 0 = 0 then (f.course rows).drop (options.skip.getD 0) else f.course rows
  | .predicate _ =>
    ((f.course rows).drop (options.skip.getD 0)).take (options.limit.filter (· ≠ 0))

/-- How many documents a search gives at most among the rows of its answer, where it is not the database
that counts them. -/
def Filter.countsTo (options : FindOptions) : Filter → Option Nat
  | .criteria _ => none
  | .predicate _ => options.limit.filter (· ≠ 0)

/-- What a search comes to among the rows of its answer. -/
def Filter.found (f : Filter) (options : FindOptions) (rows : List Row) : Course :=
  (f.selected options rows).mapM options.project

/-- A query is that of a search: it reads the collection's table by the condition and the order of the
search, and what is ahead of it is what the search selects. -/
structure Query.Finds (s : Store) (c : Nat) (f : Filter) (options : FindOptions) (q : Query) :
    Prop where
  collection : q.collection = c
  fits : q.Fits (f.ReadsBy s.dialect options) s
  limit : q.limit = f.countsTo options
  ahead : ∀ rows, q.ahead q.skip q.limit rows = f.found options rows

/-- Reading an answer out: its rows are fetched up to their end, or fewer of them where the reading may
stop, and then the cursor is closed. -/
def ReadsOut (cursor : Nat) (rows : List Row) (stops : Prop) (es : List Event) : Prop :=
  es = List.replicate rows.length (.fetch cursor true) ++ [.fetch cursor false, .close cursor] ∨
    stops ∧ ∃ k ≤ rows.length, es = List.replicate k (.fetch cursor true) ++ [.close cursor]

theorem ReadsOut.cons {cursor : Nat} {row : Row} {rows : List Row} {stops stops' : Prop}
    {es : List Event} (h : ReadsOut cursor rows stops es) (hstops : stops → stops') :
    ReadsOut cursor (row :: rows) stops' (.fetch cursor true :: es) := by
  rcases h with rfl | ⟨hs, k, hk, rfl⟩
  · exact .inl rfl
  · exact .inr ⟨hstops hs, k + 1, Nat.succ_le_succ hk, rfl⟩

/-- Nothing is sent while an answer is read. -/
theorem ReadsOut.sentStatements_eq {cursor : Nat} {rows : List Row} {stops : Prop}
    {es : List Event} (h : ReadsOut cursor rows stops es) : sentStatements es = [] := by
  have hfetches (k : Nat) (rest : List Event) (hrest : sentStatements rest = []) :
      sentStatements (List.replicate k (.fetch cursor true) ++ rest) = [] := by
    induction k with
    | zero => exact hrest
    | succ k ih => exact ih
  rcases h with rfl | ⟨-, k, -, rfl⟩
  · exact hfetches _ _ rfl
  · exact hfetches _ _ rfl

/-- Without a predicate every row is a document, and no page with an end is cut here. -/
theorem Query.ahead_of_selects_none {q : Query} {v : Value} {skip : Nat} {rows : List Row}
    (h : q.selects = none) :
    q.ahead skip none rows = (((Filter.criteria v).course rows).drop skip).mapM q.project := by
  have hexamine : q.examine = (Filter.criteria v).examine := by
    funext row
    cases row with
    | nil => rfl
    | cons cell row => simp only [examine, Filter.examine, h]
  exact congrArg (fun examine => ((Course.ofRows examine rows).drop skip).mapM q.project) hexamine

/-- A page that is full after a document is full with it one document later. -/
theorem Course.isFull_cons {left : Option Nat} {c : Course} (v : Value) (hleft : left ≠ some 0)
    (h : left.map (· - 1) = some c.documents.length ∨ c.stop ≠ none) :
    left = some (c.cons v).documents.length ∨ (c.cons v).stop ≠ none := by
  refine h.imp_left fun hlength => ?_
  cases left with
  | none => cases hlength
  | some m =>
    have hm : m ≠ 0 := fun h => hleft (congrArg some h)
    have hpred : m - 1 = c.documents.length := Option.some.inj hlength
    show some m = some (c.documents.length + 1)
    congr
    omega

namespace Action

variable {s : Store} {c : Nat} {f : Filter} {options : FindOptions}

theorem pageOf_ok {skip limit : Option Nat} {p : Nat × Option Nat} (h : pageOf skip limit = .ok p) :
    p = (skip.getD 0, limit.filter (· ≠ 0)) := by
  unfold pageOf at h
  dsimp only at h
  split at h
  · cases h
  · cases h
    rfl

/-- What a search is compiled to is its query, and nothing is done for it. -/
theorem within_compile_finds {P : Statement → Prop} (c : Nat) (f : Filter) (options : FindOptions) :
    Within P (compile c f options) s fun q s' => s' = s ∧ q.Finds s c f options := by
  unfold compile
  refine (within_collection c).bind ?_
  rintro x _ - ⟨rfl, hx⟩
  cases f with
  | predicate selects =>
    refine (within_inDialect _).bind ?_
    rintro ordered _ - ⟨rfl, hordered⟩
    refine (within_ofMisuse _).bind ?_
    rintro p _ - ⟨rfl, hp⟩
    cases pageOf_ok hp
    exact .pure ⟨rfl, rfl, ⟨⟨rfl, hordered, rfl⟩, x, none, ordered, none, hx, rfl⟩, rfl,
      fun rows => Query.ahead_ofPredicate selects⟩
  | criteria v =>
    refine (within_inDialect _).bind ?_
    rintro statement _ - ⟨rfl, hstatement⟩
    obtain ⟨condition, hcondition, hstatement⟩ := exists_of_bind_ok hstatement
    obtain ⟨ordered, hordered, hstatement⟩ := exists_of_bind_ok hstatement
    rw [Dialect.limitClause_numberOr] at hstatement
    cases hstatement
    split
    next hlimit =>
      refine (within_ofMisuse _).bind ?_
      rintro p _ - ⟨rfl, hp⟩
      cases pageOf_ok hp
      refine .pure ⟨rfl, rfl, ⟨⟨hcondition, hordered, rfl⟩, x, condition, ordered, _, hx, rfl⟩, rfl,
        fun rows => ?_⟩
      rw [Filter.found, Filter.selected, if_pos hlimit]
      exact Query.ahead_of_selects_none rfl
    next hlimit =>
      refine .pure ⟨rfl, rfl, ⟨⟨hcondition, hordered, rfl⟩, x, condition, ordered, _, hx, rfl⟩, rfl,
        fun rows => ?_⟩
      rw [Filter.found, Filter.selected, if_neg hlimit]
      exact Query.ahead_of_selects_none rfl

variable {q : Query} {cursor skip : Nat} {left : Option Nat} {rows : List Row}

/-- All documents among rows are read by fetching the rows, up to where the page is full or a row
stops the reading. -/
theorem ensures_allAmong_readsOut :
    Ensures (allAmong q cursor none skip left rows) s fun _ s' => s'.script = s.script ∧
      ∃ es, s.Leads es s' ∧ ReadsOut cursor rows
        (left = some (q.ahead skip left rows).documents.length ∨ (q.ahead skip left rows).stop ≠ none)
        es := by
  induction rows generalizing s skip left with
  | nil =>
    by_cases hleft : left = some 0
    · rw [hleft, allAmong_full, Query.ahead_full]
      exact ⟨rfl, _, .of_eq rfl rfl rfl rfl rfl rfl, .inr ⟨.inl rfl, 0, Nat.le_refl 0, rfl⟩⟩
    · rw [allAmong_nil q cursor none skip hleft]
      refine ⟨rfl, [.fetch cursor false, .close cursor], ?_, .inl rfl⟩
      exact .of_eq (List.append_assoc ..) rfl rfl rfl rfl rfl
  | cons row rows ih =>
    by_cases hleft : left = some 0
    · rw [hleft, allAmong_full, Query.ahead_full]
      exact ⟨rfl, _, .of_eq rfl rfl rfl rfl rfl rfl, .inr ⟨.inl rfl, 0, Nat.zero_le _, rfl⟩⟩
    · rw [allAmong_cons q cursor none skip hleft, Query.ahead_cons hleft, ensures_takeRow_bind]
      have hfetch : s.Leads [.fetch cursor true]
          { s with trace := s.trace ++ [.fetch cursor true] } := .of_eq rfl rfl rfl rfl rfl rfl
      cases q.taken skip row with
      | error fault =>
        refine ⟨rfl, [.fetch cursor true, .close cursor], ?_, ?_⟩
        · exact .of_eq (List.append_assoc ..) rfl rfl rfl rfl rfl
        · exact .inr ⟨.inr nofun, 1, Nat.succ_le_succ (Nat.zero_le _), rfl⟩
      | ok p =>
        obtain ⟨v, n⟩ := p
        cases v with
        | none =>
          have hrest : Ensures (allAmong q cursor none n left rows)
              { s with trace := s.trace ++ [.fetch cursor true] } _ := ih
          refine hrest.mono ?_
          rintro r s' ⟨hscript, es, hs', hes⟩
          exact ⟨hscript, _, hfetch.trans hs', hes.cons id⟩
        | some v =>
          refine Ensures.bind ih ?_ ?_
          · rintro vs s' ⟨hscript, es, hs', hes⟩
            exact ⟨hscript, _, hfetch.trans hs', hes.cons (Course.isFull_cons v hleft)⟩
          · rintro fault s' ⟨hscript, es, hs', hes⟩
            exact ⟨hscript, _, hfetch.trans hs', hes.cons (Course.isFull_cons v hleft)⟩

/-- Where a collection knows its table to be there, nothing is done to make it. -/
theorem outcome_ensureTable_of_isReady {t : Text} (h : s.IsReady c t) :
    (ensureTable c).outcome s = (.ok (), s) := by
  obtain ⟨x, hx, -, hready⟩ := h
  unfold ensureTable
  rw [outcome_bind_ok (outcome_collection hx), hready]
  rfl

end Action

/-- What is done before documents of a collection are asked for: its table is made, unless the collection
knows it to be there. -/
structure Store.Prepares (s : Store) (c : Nat) (es : List Event) : Prop where
  creates : ∀ t ∈ sentTexts s.engine es, IsCreate t
  ready : (∃ t, s.IsReady c t) → es = []

namespace Action

variable {s : Store} {c : Nat} {f : Filter} {options : FindOptions} {q : Query} {rows : List Row}

theorem ensures_ensureTable_prepares (hworks : s.Works) (hserves : s.Serves c) :
    Ensures (ensureTable c) s fun r s' => r = .ok () ∧ s'.script = s.script ∧
      ∃ es, s.Leads es s' ∧ s.Prepares c es := by
  by_cases hready : ∃ t, s.IsReady c t
  · obtain ⟨t, ht⟩ := hready
    unfold Ensures
    rw [outcome_ensureTable_of_isReady ht]
    exact ⟨rfl, rfl, [], .refl s, nofun, fun _ => rfl⟩
  · refine ((ensures_ensureTable).and (ensures_ensureTable_script c)).mono ?_
    rintro r s' ⟨⟨⟨es, hs', hes⟩, hok⟩, hscript⟩
    exact ⟨hok hworks hserves, hscript (hok hworks hserves), es, hs', hes, fun h => absurd h hready⟩

/-- A query of a collection is sent once its table is there, and the next reply is its answer. -/
theorem ensures_opened_asks (hworks : s.Works) (hserves : s.Serves q.collection)
    (hselect : ("SELECT" : Text) <+: q.statement.text s.engine) :
    Ensures q.documents.opened s fun r s' => ∃ cursor es,
      r = .ok { q.documents with reading := .under cursor (Store.nextReply s.script).1 } ∧
        s.Leads (es ++ [.send cursor q.statement]) s' ∧ s.Prepares q.collection es ∧
        s'.script = (Store.nextReply s.script).2 := by
  unfold Documents.opened
  dsimp only [Query.documents]
  refine (ensures_ensureTable_prepares hworks hserves).bind ?_ ?_
  · rintro _ s₁ ⟨-, hscript, es, hs₁, hes⟩
    have hanswer : s₁.answer q.statement = Store.nextReply s.script := by
      rw [Store.answer, hs₁.engine, if_pos (isQuery_of_select hselect), hscript]
    refine (ensures_send _).bind ?_ ?_
    · rintro p s₂ (⟨-, -, _, h⟩ | ⟨-, hsent⟩)
      · cases h
      · obtain ⟨rfl, hscript₂⟩ := hsent.answered p rfl
        rw [hanswer] at hscript₂ ⊢
        exact ⟨s₁.opened, es, rfl, hs₁.trans hsent.leads, hes, hscript₂⟩
    · rintro fault s₂ (⟨hclosed, -⟩ | ⟨-, hsent⟩)
      · rw [(hs₁.works hworks).isOpen] at hclosed
        cases hclosed
      · obtain ⟨_, h⟩ := hsent.succeeds (hs₁.works hworks).failure
        cases h
  · rintro fault s₁ ⟨h, -⟩
    cases h

/-- What all documents of a search do to the library once its table is there: the query of the search is
sent, which reads the table, and the answer is read out. -/
def Searches (d : Dialect) (table : Text) (f : Filter) (options : FindOptions) (rows : List Row)
    (es : List Event) : Prop :=
  ∃ cursor statement read, es = .send cursor statement :: read ∧
    f.ReadsBy d options statement ∧ statement.table? = some table ∧
    ReadsOut cursor rows (f.countsTo options = some (f.found options rows).documents.length ∨
      (f.found options rows).stop ≠ none) read

/-- All documents of a search that can be compiled come, and the replies after its answer are left. -/
theorem ensures_find_searches {x : Collection} (hworks : s.Works)
    (hx : s.collections[c]? = some x) (hname : x.table ≠ [])
    (hcompiles : ∃ q, ((compile c f options).outcome s).1 = .ok q)
    (hreply : (Store.nextReply s.script).1 = ⟨rows, none⟩) :
    Ensures (find c f options) s fun r s' => r = (f.found options rows).result ∧
      s'.script = (Store.nextReply s.script).2 ∧
      ∃ made searched, s.Leads (made ++ searched) s' ∧ s.Prepares c made ∧
        Searches s.dialect x.table f options rows searched := by
  obtain ⟨q, hq⟩ := hcompiles
  have hcompile : Ensures (compile c f options) s fun r s' =>
      r = .ok q ∧ s' = s ∧ q.Finds s c f options :=
    ⟨hq, (within_compile_finds (P := fun _ => True) c f options).2 q hq⟩
  unfold find
  refine hcompile.bind ?_ (by rintro _ _ ⟨h, -⟩; cases h)
  rintro _ _ ⟨⟨⟩, hs, hfinds⟩
  rw [hs]
  obtain ⟨y, condition, order, page, hy, hstatement⟩ := hfinds.fits.reads
  have hselect : ("SELECT" : Text) <+: q.statement.text s.engine := by
    rw [hstatement]
    exact Statement.prefix_select ..
  obtain rfl := hfinds.collection
  obtain rfl : x = y := Option.some.inj (hx.symm.trans hy)
  refine (ensures_opened_asks hworks ⟨x, hx, hname⟩ hselect).bind ?_ ?_
  · rintro _ s₁ ⟨cursor, made, ⟨⟩, hs₁, hmade, hscript⟩
    rw [hreply]
    show Ensures (allAmong q cursor none q.skip q.limit rows) s₁ _
    refine (ensures_allAmong.and ensures_allAmong_readsOut).mono ?_
    rintro r s' ⟨hr, hscript', read, hs', hread⟩
    rw [hfinds.ahead] at hr hread
    rw [hfinds.limit] at hread
    refine ⟨hr, hscript'.trans hscript, made, .send cursor q.statement :: read, ?_, hmade, cursor,
      q.statement, read, rfl, hfinds.fits.holds, by rw [hstatement]; rfl, hread⟩
    have hleads := hs₁.trans hs'
    rw [List.append_assoc] at hleads
    exact hleads
  · rintro fault s₁ ⟨cursor, made, h, -⟩
    cases h

end Action

end DocStore
