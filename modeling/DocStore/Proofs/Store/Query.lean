import DocStore.Proofs.Store.Search
import DocStore.Proofs.Text.Search

/-!
Queries that are answered. Where the database refuses nothing, a search that
can be compiled is compiled without anything being done, its query is sent when
its first document is asked for, and the answer is the next one of the script:
making sure of a table takes none.
-/

namespace DocStore

theorem Action.isQuery_of_select {t : Text} (h : ("SELECT" : Text) <+: t) : isQuery t = true := by
  obtain ⟨rest, rfl⟩ := h
  rw [isQuery, Text.startsWith, Text.after?_append]
  rfl

/-- What makes something is no query. -/
theorem IsCreate.isQuery {t : Text} (h : IsCreate t) : Action.isQuery t = false := by
  obtain ⟨rest, rfl⟩ := h
  rfl

/-- A dialect rejects a search: it rejects the criteria, or it compiles them and rejects the order. A
predicate is not compiled. -/
def Dialect.Rejects (d : Dialect) (order : Value) (fault : FilterFault) : Filter → Prop
  | .criteria v =>
    d.whereClause v = .error (.filter fault) ∨
      (∃ condition, d.whereClause v = .ok condition) ∧ d.orderClause order = .error (.filter fault)
  | .predicate _ => d.orderClause order = .error (.filter fault)

/-- The query of criteria, whose page the database cuts if it has an end. -/
def Query.ofCriteria (c : Nat) (table : Text) (condition ordered : Option Sql)
    (options : FindOptions) : Query where
  collection := c
  statement := .select table condition ordered (Dialect.pageClause options.skip options.limit)
  selects := none
  skip := if options.limit.getD 0 = 0 then options.skip.getD 0 else 0
  limit := none
  projection := options.projection.bind Projection.ofFields

/-- The query of a predicate, whose page is cut here. -/
def Query.ofPredicate (c : Nat) (table : Text) (selects : Value → Except Misuse Bool)
    (ordered : Option Sql) (options : FindOptions) : Query where
  collection := c
  statement := .select table none ordered none
  selects := some selects
  skip := options.skip.getD 0
  limit := options.limit.filter (· ≠ 0)
  projection := options.projection.bind Projection.ofFields

namespace Action

variable {s : Store} {c : Nat} {x : Collection} {options : FindOptions} {ordered : Option Sql}

theorem outcome_collection (hx : s.collections[c]? = some x) :
    (collection c).outcome s = (.ok x, s) := by
  unfold collection
  rw [outcome_get_bind, hx]
  rfl

theorem outcome_inDialect {α : Type} {f : Dialect → Except Fault α} {a : α}
    (h : f s.dialect = .ok a) : (inDialect f).outcome s = (.ok a, s) := by
  unfold inDialect
  rw [outcome_get_bind, h]
  rfl

theorem outcome_inDialect_rejected {α : Type} {f : Dialect → Except Fault α} {fault : FilterFault}
    (h : f s.dialect = .error (.filter fault)) :
    (inDialect f).outcome s = (.error (.filter fault), s) := by
  unfold inDialect
  rw [outcome_get_bind, h]
  rfl

theorem pageOf_eq {skip limit : Option Nat} (h : skip.getD 0 + limit.getD 0 ≤ pageLimit) :
    pageOf skip limit = .ok (skip.getD 0, limit.filter (· ≠ 0)) := by
  have hlimit : (limit.filter (· ≠ 0)).getD 0 = limit.getD 0 := by
    cases limit with
    | none => rfl
    | some n => cases n <;> rfl
  simp only [pageOf, hlimit, if_neg (Nat.not_lt.mpr h)]

theorem outcome_compile_criteria {v : Value} {condition : Option Sql}
    (hx : s.collections[c]? = some x) (hcondition : s.dialect.whereClause v = .ok condition)
    (hordered : s.dialect.orderClause options.order = .ok ordered)
    (hpage : options.skip.getD 0 ≤ pageLimit) :
    (compile c (.criteria v) options).outcome s =
      (.ok (.ofCriteria c x.table condition ordered options), s) := by
  unfold compile
  rw [outcome_bind_ok (outcome_collection hx)]
  dsimp only
  have hclause := Dialect.limitClause_numberOr options.skip options.limit
  rw [FindOptions.order] at hordered
  rw [outcome_bind_ok (outcome_inDialect (a := .select x.table condition ordered
    (Dialect.pageClause options.skip options.limit)) (by rw [hcondition, hordered, hclause]; rfl))]
  by_cases hlimit : options.limit.getD 0 = 0
  · rw [if_pos hlimit, pageOf_eq (by simpa using hpage)]
    simp only [Query.ofCriteria, if_pos hlimit]
    rfl
  · rw [if_neg hlimit]
    simp only [Query.ofCriteria, if_neg hlimit]
    rfl

theorem outcome_compile_predicate {selects : Value → Except Misuse Bool}
    (hx : s.collections[c]? = some x)
    (hordered : s.dialect.orderClause options.order = .ok ordered)
    (hpage : options.skip.getD 0 + options.limit.getD 0 ≤ pageLimit) :
    (compile c (.predicate selects) options).outcome s =
      (.ok (.ofPredicate c x.table selects ordered options), s) := by
  unfold compile
  rw [outcome_bind_ok (outcome_collection hx)]
  dsimp only
  rw [outcome_bind_ok (outcome_inDialect hordered), pageOf_eq hpage]
  rfl

/-- A search that is rejected is not compiled, and nothing is done. -/
theorem outcome_compile_rejected {f : Filter} {fault : FilterFault}
    (hx : s.collections[c]? = some x) (h : s.dialect.Rejects options.order fault f) :
    (compile c f options).outcome s = (.error (.filter fault), s) := by
  unfold compile
  rw [outcome_bind_ok (outcome_collection hx)]
  cases f with
  | predicate selects => exact outcome_bind_error (outcome_inDialect_rejected h)
  | criteria v =>
    refine outcome_bind_error (outcome_inDialect_rejected ?_)
    obtain hcondition | ⟨⟨condition, hcondition⟩, hordered⟩ := h
    · rw [hcondition]
      rfl
    · rw [FindOptions.order] at hordered
      rw [hcondition, hordered]
      rfl

/-! ### Sending the query -/

theorem ensures_sendAll_script (table : Text) {sqls : List Sql}
    (hsqls : ∀ sql ∈ sqls, IsCreate sql.render) :
    Ensures (sendAll table sqls) s fun r s' => r = .ok () → s'.script = s.script := by
  induction sqls generalizing s with
  | nil => exact fun _ => rfl
  | cons sql sqls ih =>
    obtain ⟨hsql, hsqls⟩ := List.forall_mem_cons.mp hsqls
    have hquery : s.answer (.create table sql) = ({}, s.script) := by
      rw [Store.answer]
      exact if_neg (by rw [Statement.text, Statement.sql, hsql.isQuery]; exact Bool.false_ne_true)
    unfold sendAll
    refine (ensures_change _).bind ?_ (by rintro _ _ _ ⟨⟩)
    rintro v s₁ (⟨-, -, _, h⟩ | ⟨es, -, -, hscript, -⟩)
    · cases h
    · refine (ih hsqls).mono fun r s' h hr => ?_
      rw [h hr, hscript ⟨v, rfl⟩, hquery]

theorem ensures_makeTable_script (table : Text) :
    Ensures (makeTable table) s fun r s' => r = .ok () → s'.script = s.script := by
  unfold makeTable
  cases hsqls : s.dialect.createStatements table with
  | ok sqls =>
    have hcreate := Dialect.isCreate_of_mem_createStatements hsqls
    unfold Ensures
    rw [outcome_bind_ok (outcome_inDialect hsqls)]
    exact ensures_sendAll_script table hcreate
  | error fault =>
    refine (ensures_inDialect _).bind ?_ (by rintro _ _ _ ⟨⟩)
    rintro sqls s₁ ⟨h, -⟩
    rw [hsqls] at h
    cases h

/-- Making sure of a table takes no reply. -/
theorem ensures_ensureTable_script (c : Nat) :
    Ensures (ensureTable c) s fun r s' => r = .ok () → s'.script = s.script := by
  unfold ensureTable
  refine ensures_collection.bind ?_ (by rintro _ _ _ ⟨⟩)
  rintro x s₀ ⟨rfl, -⟩
  cases x.isReady with
  | true => exact fun _ => rfl
  | false =>
    refine (ensures_makeTable_script x.table).bind (fun _ s₁ h => ?_) (by rintro _ _ _ ⟨⟩)
    exact fun _ => h rfl

end Action

namespace Documents

open DocStore.Action

variable {s : Store} {d : Documents}

/-- Where the database refuses nothing, the first document is asked for by the query of the documents,
after nothing but what makes a table, and the next reply is the answer. -/
theorem ensures_opened (hworks : s.Works) (hserves : s.Serves d.query.collection)
    (hwaiting : d.reading = .waiting)
    (hquery : isQuery (d.query.statement.text s.engine) = true) :
    Ensures d.opened s fun r s' => ∃ cursor es,
      r = .ok { d with reading := .under cursor (Store.nextReply s.script).1 } ∧
        s.Leads (es ++ [.send cursor d.query.statement]) s' ∧
        ∀ t ∈ sentTexts s.engine es, IsCreate t := by
  unfold opened
  rw [hwaiting]
  dsimp only
  -- The table is made sure of first, by statements that take no reply.
  refine (ensures_ensureTable.and (ensures_ensureTable_script _)).bind ?_ ?_
  · rintro _ s₁ ⟨⟨⟨es, hs₁, hes⟩, -⟩, hscript⟩
    refine (ensures_send _).bind ?_ ?_
    · rintro p s₂ (⟨-, -, _, h⟩ | ⟨-, hsent⟩)
      · cases h
      · obtain ⟨rfl, -⟩ := hsent.answered p rfl
        have hanswer : s₁.answer d.query.statement = Store.nextReply s.script := by
          rw [Store.answer, hs₁.engine, if_pos hquery, hscript rfl]
        rw [hanswer]
        exact ⟨s₁.opened, es, rfl, hs₁.trans hsent.leads, hes⟩
    · rintro fault s₂ (⟨hclosed, -⟩ | ⟨-, hsent⟩)
      · rw [(hs₁.works hworks).isOpen] at hclosed
        cases hclosed
      · obtain ⟨_, h⟩ := hsent.succeeds (hs₁.works hworks).failure
        cases h
  · rintro fault s₁ ⟨⟨-, hok⟩, -⟩
    cases hok hworks hserves

end Documents

end DocStore
