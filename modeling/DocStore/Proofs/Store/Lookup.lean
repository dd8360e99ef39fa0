import DocStore.Proofs.Store.Insert
import DocStore.Proofs.Store.Query
import DocStore.Proofs.Store.Statement
import DocStore.Proofs.Store.Verb

/-!
Documents looked up by their ids. The id stands in criteria of its own, so a
value that is neither an object nor a pattern is only ever compared: the query
has one test, that the id is equal to the value or null, and no query is sent
for a value that has no literal. An object is read as conditions instead, and
the empty one puts none: whatever document comes first is found, and saving
writes over it.
-/

namespace DocStore

/-- A value that stands for itself as an id. -/
def Value.IsPlainId : Value → Prop
  | .object _ | .pattern _ => False
  | _ => True

namespace Dialect

/-- The test that the id of a document is equal to a value. -/
def idTest (d : Dialect) (v : Value) : Except Fault Sql := do
  let selector ← d.selector idField true
  if v.isNull then return selector ++ " IS NULL" else return selector ++ " = " ++ (← d.literal v)

variable {d : Dialect} {v : Value}

theorem operator_eq_id : d.operator .eq idField v = some <$> d.idTest v := by
  unfold operator idTest
  cases d.selector idField true with
  | error fault => rfl
  | ok selector =>
    cases hnull : v.isNull with
    | true => rfl
    | false => cases d.literal v <;> rfl

theorem field_id (hv : v.IsPlainId) :
    d.filterMember idField v = (fun test => some (.all [.leaf test])) <$> d.idTest v := by
  have hcondition : d.fieldCondition idField Operator.eq.name v =
      (fun test => some (.leaf test)) <$> d.idTest v := by
    show (do return (← d.operator .eq idField v).map Condition.leaf) = _
    rw [operator_eq_id]
    cases d.idTest v <;> rfl
  have hconditions : d.fieldConditions idField [(Operator.eq.name, v)] =
      (fun test => some (.all [.leaf test])) <$> d.idTest v := by
    unfold fieldConditions
    rw [List.mapM_cons, List.mapM_nil]
    dsimp only
    rw [hcondition]
    cases d.idTest v <;> rfl
  -- Only an object is read as conditions, and only a pattern as another operator.
  cases v with
  | object => exact hv.elim
  | pattern => exact hv.elim
  | _ => exact hconditions

/-- Criteria of an id that stands for itself are one test. -/
theorem whereClause_id (hv : v.IsPlainId) :
    d.whereClause (.object (Members.one idField v)) =
      (fun test : Sql => some ("WHERE " ++ test)) <$> d.idTest v := by
  have hfilter : d.filter (.object [(idField, v)]) =
      (fun test => some (.all [.all [.leaf test]])) <$> d.idTest v := by
    unfold filter filterMembers filterMembers
    rw [field_id hv]
    cases d.idTest v <;> rfl
  have hsql : d.expression (.object [(idField, v)]) = some <$> d.idTest v := by
    show (do return (← d.filter (.object [(idField, v)])).map Condition.sql) = _
    have hall (test : Sql) : (Condition.all [.all [.leaf test]]).sql = test := by
      simp [Condition.sql, Condition.sqlParts, Sql.join, List.intercalate]
    rw [hfilter]
    cases d.idTest v with
    | error fault => rfl
    | ok test => exact congrArg (fun sql => Except.ok (some sql)) (hall test)
  show (do return (← d.expression (.object [(idField, v)])).map fun sql : Sql => "WHERE " ++ sql) = _
  rw [hsql]
  cases d.idTest v <;> rfl

/-- A text reads the document whose id is equal to a value, and no other one. -/
def LooksUp (d : Dialect) (v : Value) (t : Text) : Prop :=
  ∃ (table : Text) (test : Sql), d.idTest v = .ok test ∧
    t = "SELECT " ++ d.documentColumn.render ++ " FROM " ++ quoteName d.engine.nameMark table
      ++ " WHERE " ++ test.render ++ " LIMIT 1"

theorem looksUp_select {table : Text} {test : Sql} (htest : d.idTest v = .ok test) :
    d.LooksUp v ((Statement.select table (some ("WHERE " ++ test)) none
      (pageClause none (some 1))).text d.engine) := by
  refine ⟨table, test, htest, ?_⟩
  simp [Statement.text, Statement.sql, Statement.withClauses, Statement.name, Sql.join, Sql.render,
    Sql.code, Piece.text, List.intercalate, pageClause, integerPiece, documentColumn]
  rfl

end Dialect

namespace Store

variable {s : Store} {v : Value} {fault : Fault}

/-- An engine whose numbers stand in quotes quotes every text. -/
theorem Works.exists_quoted (hs : s.Works) (hbare : s.dialect.hasBareNumbers = false) (t : Text) :
    ∃ sql, s.dialect.quoted t = .ok sql := by
  have hquote : ∃ l, s.engine.quote t = .ok l := by
    cases he : s.engine with
    | mysql => exact ⟨_, rfl⟩
    | pgsql => exact ⟨_, rfl⟩
    | sqlite => simp [Dialect.hasBareNumbers, dialect, he] at hbare
  obtain ⟨l, hl⟩ := hquote
  have hquoted : s.quote t = .ok l := by
    simp [quote, hs.isOpen, hs.quoting, hl]
  exact ⟨[.literal l], by rw [Dialect.quoted, show s.dialect.quote t = .ok l from hquoted]; rfl⟩

/-- Where nothing is refused, only a value that has no literal is refused. -/
theorem Works.filter_of_literal_error (hs : s.Works) (h : s.dialect.literal v = .error fault) :
    ∃ f, fault = .filter f := by
  -- Numbers and truth values stand bare or in quotes, and neither is ever refused.
  have hnumber (n : Number) : s.dialect.numberLiteral n ≠ .error fault := by
    unfold Dialect.numberLiteral
    split
    · exact nofun
    next hbare =>
      obtain ⟨sql, hsql⟩ := hs.exists_quoted (Bool.eq_false_iff.mpr hbare) n.display
      rw [hsql]
      exact nofun
  cases v with
  | null => cases h
  | bool b =>
    replace h : s.dialect.truthLiteral b = .error fault := h
    unfold Dialect.truthLiteral at h
    split at h
    · cases h
    next hbare =>
      obtain ⟨sql, hsql⟩ := hs.exists_quoted (Bool.eq_false_iff.mpr hbare)
        (if b then "true" else "false")
      rw [hsql] at h
      cases h
  | int n => exact absurd h (hnumber (.int n))
  | float x => exact absurd h (hnumber (.float x))
  | str t =>
    replace h : s.dialect.textLiteral t = .error fault := h
    unfold Dialect.textLiteral at h
    split at h
    next hencodable =>
      obtain ⟨sql, hsql⟩ := Dialect.exists_quoted hs.quotesAll hencodable
      rw [hsql] at h
      cases h
    next =>
      cases h
      exact ⟨_, rfl⟩
  | _ =>
    cases h
    exact ⟨_, rfl⟩

theorem Works.filter_of_idTest_error (hs : s.Works) (h : s.dialect.idTest v = .error fault) :
    ∃ f, fault = .filter f := by
  obtain ⟨selector, hselector⟩ := Dialect.exists_selector_id hs.quotesAll
  unfold Dialect.idTest at h
  rw [hselector] at h
  cases hnull : v.isNull with
  | true =>
    rw [hnull] at h
    cases h
  | false =>
    rw [hnull] at h
    cases hliteral : s.dialect.literal v with
    | error fault' =>
      rw [hliteral] at h
      cases h
      exact hs.filter_of_literal_error hliteral
    | ok literal =>
      rw [hliteral] at h
      cases h

/-- A query was sent between two stores. -/
def Queries (s s' : Store) : Prop :=
  ∃ es, s.Leads es s' ∧ ∃ t ∈ sentTexts s.engine es, ("SELECT" : Text) <+: t

variable {P : Statement → Prop} {s₁ s' : Store}

theorem Queries.steps (h : s.Queries s₁) (hs : s₁.Steps P s') : s.Queries s' := by
  obtain ⟨es, hleads, t, ht, hselect⟩ := h
  obtain ⟨es', hleads', -⟩ := hs.leads
  refine ⟨es ++ es', hleads.trans hleads', t, ?_, hselect⟩
  rw [sentTexts_append]
  exact List.mem_append_left _ ht

theorem Reaches.queries {C : Text → Prop} (hs : s.Reaches C s₁) (h : s₁.Queries s') :
    s.Queries s' := by
  obtain ⟨es, hleads, -⟩ := hs
  obtain ⟨es', hleads', t, ht, hselect⟩ := h
  refine ⟨es ++ es', hleads.trans hleads', t, ?_, hselect⟩
  rw [sentTexts_append]
  rw [hleads.engine] at ht
  exact List.mem_append_right _ ht

end Store

namespace Action

variable {α β : Type} {s : Store} {c : Nat} {v : Value}

/-- An action sends a query, or fails because of its filter. -/
def Asks (a : Action α) (s : Store) : Prop :=
  Ensures a s fun r s' => s.Queries s' ∨ ∃ f, r = .error (.filter f)

/-- Once the first of two actions has sent a query, it does not matter what the second one does. -/
theorem Asks.bind {a : Action α} {f : α → Action β} {P : Statement → Prop} {Q : α → Store → Prop}
    (hasks : Asks a s) (ha : Within P a s Q)
    (hf : ∀ x s', s.Steps P s' → Q x s' → Within P (f x) s' fun _ _ => True) :
    Asks (a >>= f) s := by
  refine Ensures.bind (ha.and hasks) ?_ ?_
  · rintro x s₁ ⟨⟨hs₁, hx⟩, hqueries | ⟨_, h⟩⟩
    · exact Ensures.mono (hf x s₁ hs₁ (hx x rfl)) fun _ _ h => .inl (hqueries.steps h.1)
    · cases h
  · rintro fault s₁ ⟨-, hqueries | ⟨f, h⟩⟩
    · exact .inl hqueries
    · cases h
      exact .inr ⟨f, rfl⟩

/-! ### Looking up -/

section

variable {q : Query} (hworks : s.Works) (hserves : s.Serves q.collection)
  (hq : q.Fits (fun _ => True) s)

include hworks hserves hq

/-- A query is sent when its first document is asked for. -/
theorem asks_opened : Asks q.documents.opened s := by
  obtain ⟨x, condition, order, page, -, hstatement⟩ := hq.reads
  have hselect : ("SELECT" : Text) <+: q.statement.text s.engine := by
    rw [hstatement]
    exact Statement.prefix_select ..
  have hquery := isQuery_of_select hselect
  refine (Documents.ensures_opened (d := q.documents) hworks hserves rfl hquery).mono ?_
  rintro r s' ⟨cursor, es, -, hleads, -⟩
  refine .inl ⟨_, hleads, _, ?_, hselect⟩
  rw [sentTexts_append]
  exact List.mem_append_right _ List.mem_cons_self

theorem asks_toList : Asks q.documents.toList s :=
  (asks_opened hworks hserves hq).bind (Documents.within_opened (fun _ _ => trivial) hq)
    fun d _ _ _ => Documents.within_toListOpened d

theorem asks_first : Asks q.documents.first s := by
  have hnext : Asks q.documents.next s :=
    (asks_opened hworks hserves hq).bind (Documents.within_opened (fun _ _ => trivial) hq)
      fun d _ _ _ => (Documents.within_nextOpened d).weaken
  exact hnext.bind (Documents.within_next (fun _ _ => trivial) hq)
    fun p _ _ _ => Documents.within_firstNext p

end

/-- What is asked for by an id that stands for itself is compiled to its one test, or is refused. -/
theorem asks_compiled {options : FindOptions} {f : Query → Action α} (hv : v.IsPlainId)
    (hworks : s.Works) (hserves : s.Serves c) (hoptions : options.sort = none)
    (hpage : options.skip.getD 0 ≤ pageLimit)
    (hf : ∀ q : Query, q.collection = c → q.Fits (fun _ => True) s → Asks (f q) s) :
    Asks (compile c (withIdOf v) options >>= f) s := by
  -- The criteria come to the one test of the id: where it is refused, so are they.
  have hwhere := Dialect.whereClause_id (d := s.dialect) hv
  cases htest : s.dialect.idTest v with
  | error fault =>
    obtain ⟨g, rfl⟩ := hworks.filter_of_idTest_error htest
    have hfault : s.dialect.whereClause (.object (Members.one idField v)) = .error (.filter g) := by
      rw [hwhere, htest]
      rfl
    have hrejects : s.dialect.Rejects options.order g (withIdOf v) := .inl hfault
    obtain ⟨x, hx, -⟩ := hserves
    unfold Asks Ensures
    rw [outcome_bind_error (outcome_compile_rejected hx hrejects)]
    exact .inr ⟨g, rfl⟩
  | ok test =>
    have hcondition : s.dialect.whereClause (.object (Members.one idField v)) =
        .ok (some ("WHERE " ++ test)) := by
      rw [hwhere, htest]
      rfl
    obtain ⟨x, hx, -⟩ := hserves
    have hordered : s.dialect.orderClause options.order = .ok none := by
      rw [FindOptions.order, hoptions]
      rfl
    have hcompiled : (compile c (withIdOf v) options).outcome s = _ :=
      outcome_compile_criteria hx hcondition hordered hpage
    unfold Asks Ensures
    rw [outcome_bind_ok hcompiled]
    exact hf _ rfl ⟨trivial, x, _, _, _, hx, rfl⟩

section

variable (hv : v.IsPlainId) (hworks : s.Works) (hserves : s.Serves c)

include hv hworks hserves

theorem asks_find {options : FindOptions} (hsort : options.sort = none)
    (hskip : options.skip.getD 0 ≤ pageLimit) : Asks (find c (withIdOf v) options) s :=
  asks_compiled hv hworks hserves hsort hskip fun _ hcollection hq =>
    asks_toList hworks (hcollection ▸ hserves) hq

theorem asks_findOne : Asks (findOne c (withIdOf v) {}) s :=
  asks_compiled hv hworks hserves rfl (Nat.zero_le _) fun _ hcollection hq =>
    asks_first hworks (hcollection ▸ hserves) hq

theorem asks_updateOne (patch : Value) : Asks (updateOne c (withIdOf v) patch) s := by
  have hplain (st : Statement) (_ : st.IsPlain) : True := trivial
  refine (asks_find hv hworks hserves rfl (Nat.zero_le _)).bind
    (within_find hplain fun _ _ => trivial) fun matching s₁ _ hready => ?_
  exact (within_overlayAll hplain patch matching hready).bind fun _ _ _ _ => .pure trivial

theorem asks_replaceOne (document : Value) : Asks (replaceOne c (withIdOf v) document) s := by
  have hplain (st : Statement) (_ : st.IsPlain) : True := trivial
  refine (asks_findOne hv hworks hserves).bind (within_findOne hplain fun _ _ => trivial)
    fun current s₁ _ hready => ?_
  split
  · exact .pure trivial
  · refine (within_ofMisuse _).bind ?_
    rintro ⟨id, ms⟩ _ - ⟨rfl, -⟩
    exact (within_writeOver hplain id ms hready).bind fun _ _ _ _ => .pure trivial

end

/-! ### Verbs that look for an id -/

section

variable {name : Value} (hworks : s.Works) (hoffers : s.Offers name)

include hworks hoffers

theorem asks_obtain {f : Nat → Action α}
    (hf : ∀ c s₁, s₁.Works → s₁.Serves c → Asks (f c) s₁) : Asks (obtain name >>= f) s := by
  obtain ⟨t, rfl, hne, hregistered⟩ := hoffers
  refine Ensures.bind (ensures_obtain _) ?_ ?_
  · rintro c s₁ ⟨hs₁, hobtained⟩
    obtain ⟨_, ⟨⟩, hserves⟩ := hobtained t rfl hne hworks hregistered
    refine Ensures.mono (hf c s₁ (hs₁.works hworks) hserves) ?_
    rintro r s' (hqueries | hfault)
    · exact .inl (hs₁.queries hqueries)
    · exact .inr hfault
  · rintro fault s₁ ⟨-, hobtained⟩
    obtain ⟨_, h, -⟩ := hobtained t rfl hne hworks hregistered
    cases h

variable (hv : v.IsPlainId)

include hv

theorem asks_findById : Asks (findById name v) s :=
  asks_obtain hworks hoffers fun _ _ hworks hserves => asks_findOne hv hworks hserves

theorem asks_save {ms : Members} (hid : lacksId ms = false)
    (hget : Members.get? ms idField = some v) (isCreate : Bool) :
    Asks (save name (.object ms) isCreate) s := by
  have hplain (st : Statement) (_ : st.IsPlain) : True := trivial
  refine asks_obtain hworks hoffers fun c s₁ hworks hserves => ?_
  simp only [hid, hget, Option.getD_some, Bool.false_eq_true, if_false]
  cases isCreate with
  | true =>
    refine (asks_replaceOne hv hworks hserves _).bind
      (within_replaceOne hplain _ fun _ _ => trivial) fun found s₂ _ _ => ?_
    cases found with
    | true => exact .pure trivial
    | false => exact within_insertOne hplain c _
  | false =>
    refine (asks_updateOne hv hworks hserves _).bind
      (within_updateOne hplain _ fun _ _ => trivial) fun found s₂ _ _ => ?_
    cases found with
    | true =>
      exact (within_findOne hplain fun _ _ => trivial).bind fun _ _ _ _ => .pure trivial
    | false => exact within_insertOne hplain c _

end

end Action

namespace Dialect

variable {d : Dialect} {v : Value}

/-- A text is no query, or it is the query of an id. -/
def OnlyLooksUp (d : Dialect) (v : Value) (t : Text) : Prop :=
  ("SELECT" : Text) <+: t → d.LooksUp v t

theorem onlyLooksUp_of_isPlain {st : Statement} (h : st.IsPlain) :
    d.OnlyLooksUp v (st.text d.engine) := by
  obtain ⟨c, hc, hhead⟩ := h.exists_head d.engine
  rintro ⟨rest, hrest⟩
  rw [← hrest] at hhead
  cases hhead
  exact absurd hc (by decide)

/-- Where an id stands for itself, its criteria are read by the query of the id. -/
theorem onlyLooksUp_of_readsBy (hv : v.IsPlainId) {st : Statement}
    (h : (Action.withIdOf v).ReadsBy d { limit := some 1 } st) :
    d.OnlyLooksUp v (st.text d.engine) := by
  intro _
  cases st with
  | select table condition ordered page =>
    obtain ⟨hcondition, ⟨⟩, rfl⟩ := h
    rw [whereClause_id hv] at hcondition
    cases htest : d.idTest v with
    | error fault =>
      rw [htest] at hcondition
      cases hcondition
    | ok test =>
      rw [htest] at hcondition
      cases hcondition
      exact looksUp_select htest
  | _ => exact h.elim

end Dialect

namespace Verb

/-- A verb looks for the document of an id: it reads that document, or saves one with that id. -/
def LooksFor (name v : Value) : Verb → Prop
  | .findById collection id => collection = name ∧ id = v
  | .save collection document _ => collection = name ∧
    ∃ ms, document = .object ms ∧ lacksId ms = false ∧ Members.get? ms idField = some v
  | _ => False

section

variable {s : Store} {u : Verb} {name v : Value} (hu : u.LooksFor name v) (hv : v.IsPlainId)

include hu hv

theorem within_looksFor :
    Action.Within (fun st => s.dialect.OnlyLooksUp v (st.text s.dialect.engine)) u.run s
      fun _ _ => True := by
  have hplain (st : Statement) (hst : st.IsPlain) :
      s.dialect.OnlyLooksUp v (st.text s.dialect.engine) := Dialect.onlyLooksUp_of_isPlain hst
  cases u with
  | findById collection id =>
    obtain ⟨rfl, rfl⟩ := hu
    have hfind := Action.within_findById (s := s) hplain collection id
      fun _ => Dialect.onlyLooksUp_of_readsBy hv
    exact hfind.bind fun _ _ _ _ => .pure trivial
  | save collection document isCreate =>
    obtain ⟨rfl, ms, rfl, -, hget⟩ := hu
    have hsave := Action.within_save (s := s) hplain collection (.object ms) isCreate ?_
    · exact hsave.bind fun _ _ _ _ => .pure trivial
    · rintro _ ⟨⟩ - st
      rw [hget]
      exact Dialect.onlyLooksUp_of_readsBy hv
  | _ => exact hu.elim

theorem asks_looksFor (hworks : s.Works) (hoffers : s.Offers name) : Action.Asks u.run s := by
  have hplain (st : Statement) (_ : st.IsPlain) : True := trivial
  cases u with
  | findById collection id =>
    obtain ⟨rfl, rfl⟩ := hu
    exact (Action.asks_findById hworks hoffers hv).bind
      (Action.within_findById hplain collection id fun _ _ => trivial) fun _ _ _ _ => .pure trivial
  | save collection document isCreate =>
    obtain ⟨rfl, ms, rfl, hid, hget⟩ := hu
    exact (Action.asks_save hworks hoffers hv hid hget isCreate).bind
      (Action.within_save hplain collection _ isCreate fun _ _ _ _ _ => trivial)
      fun _ _ _ _ => .pure trivial
  | _ => exact hu.elim

end

/-- The document of an id is looked for by the id. Where the id stands for itself, every query tests
that the id of a document is equal to it, or null if it is null, and tests nothing else; where the
database refuses nothing, such a query is sent, unless the id has no literal. -/
theorem run_looksUp {s : Store} {u : Verb} {name v : Value} (hu : u.LooksFor name v)
    (hv : v.IsPlainId) :
    ∃ es, (u.run.outcome s).2.trace = s.trace ++ es ∧
      (∀ t ∈ sentTexts s.engine es, s.dialect.OnlyLooksUp v t) ∧
      (s.Works → s.Offers name →
        (∃ t ∈ sentTexts s.engine es, s.dialect.LooksUp v t) ∨
          (∃ f, (u.run.outcome s).1 = .error (.filter f)) ∧
            ∀ t ∈ sentTexts s.engine es, ¬ ("SELECT" : Text) <+: t) := by
  obtain ⟨es, hleads, hes⟩ := (within_looksFor hu hv).steps.leads
  have honly : ∀ t ∈ sentTexts s.engine es, s.dialect.OnlyLooksUp v t := by
    rw [sentTexts_eq]
    exact List.forall_mem_map.mpr hes
  refine ⟨es, hleads.trace, honly, fun hworks hoffers => ?_⟩
  by_cases hselect : ∃ t ∈ sentTexts s.engine es, ("SELECT" : Text) <+: t
  · obtain ⟨t, ht, hselect⟩ := hselect
    exact .inl ⟨t, ht, honly t ht hselect⟩
  · have hnone : ∀ t ∈ sentTexts s.engine es, ¬ ("SELECT" : Text) <+: t :=
      fun t ht h => hselect ⟨t, ht, h⟩
    rcases asks_looksFor hu hv hworks hoffers with ⟨es', hleads', hqueries⟩ | hfault
    -- Both say what was sent in this run, of which there is only one trace.
    · obtain rfl := List.append_cancel_left (hleads'.trace.symm.trans hleads.trace)
      exact absurd hqueries hselect
    · exact .inr ⟨hfault, hnone⟩

/-- An id that holds a quotation mark. -/
def quoted : Value := .object [(idField, .str "1' OR '1"), ("a", .int 1)]

theorem run_looksUp_quoted :
    (Verb.save (.str "c") quoted true).LooksFor (.str "c") (.str "1' OR '1") ∧
      Value.IsPlainId (.str "1' OR '1") ∧
      ∃ es,
        ((Verb.save (.str "c") quoted true).run.outcome (Store.ready .sqlite)).2.trace = [] ++ es ∧
        (∀ t ∈ sentTexts .sqlite es,
          (Store.ready .sqlite).dialect.OnlyLooksUp (.str "1' OR '1") t) ∧
        ∃ t ∈ sentTexts .sqlite es, (Store.ready .sqlite).dialect.LooksUp (.str "1' OR '1") t := by
  have hu : (Verb.save (.str "c") quoted true).LooksFor (.str "c") (.str "1' OR '1") :=
    ⟨rfl, _, rfl, rfl, rfl⟩
  obtain ⟨es, htrace, honly, hsent⟩ := run_looksUp (s := Store.ready .sqlite) hu trivial
  refine ⟨hu, trivial, es, htrace, honly, ?_⟩
  have hworks : (Store.ready .sqlite).Works := ⟨rfl, rfl, rfl⟩
  rcases hsent hworks ⟨"c", rfl, by decide, nofun⟩ with hlookup | ⟨-, hnone⟩
  · exact hlookup
  · obtain rfl := htrace
    exact absurd hnone (by decide +kernel)

/-- An object is no id that is compared: where the document that comes first has another id, it is
found by a query without a condition, and is written over. -/
theorem run_writesOver_other :
    (sentTexts .sqlite ((Verb.save (.str "c") (.object [(idField, .object []), ("a", .int 1)])
      true).run.outcome { Store.ready .sqlite with
        script := { replies := [{ rows := [[.str "\x7b\"_id\":\"x\"\x7d"]] }] } }).2.trace).drop 2 =
      ["SELECT \"document\" FROM \"c\" LIMIT 1",
        "UPDATE \"c\" SET \"document\" = '\x7b\"_id\":\"x\",\"a\":1\x7d' WHERE "
          ++ "json_extract(\"document\", '$._id') = 'x'"] := by
  decide +kernel

end Verb

end DocStore
