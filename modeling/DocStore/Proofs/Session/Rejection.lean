import DocStore.Proofs.Session.Tables
import DocStore.Proofs.Store.Drain

/-!
Searches that are rejected. A filter or an order that the dialect rejects is
reported before anything is done: no statement is sent, no table is made, and
the collection knows as much of its table as before. Deleting and counting by
criteria are the exception, because they make sure of the table first.
-/

namespace DocStore

namespace CollectionVerb

/-- A verb searches its collection by a filter, in an order. -/
inductive Searches : CollectionVerb → Filter → Value → Prop where
  | findOne (f : Filter) {v : Value} {options : FindOptions}
    (h : FindOptions.ofValue v = .ok (.ok options)) : Searches (.findOne f v) f options.order
  | updateMany (f : Filter) (patch : Value) {v : Value} {options : FindOptions}
    (h : FindOptions.ofValue v = .ok (.ok options)) :
    Searches (.updateMany f patch v) f options.order
  | updateOne (f : Filter) (patch : Value) : Searches (.updateOne f patch) f .null
  | replaceOne (f : Filter) (document : Value) : Searches (.replaceOne f document) f .null
  | deleteMany (f : Filter) : Searches (.deleteMany f) f .null
  | count (f : Filter) : Searches (.count f) f .null

/-- A verb makes sure of the table before its filter is compiled. -/
def PreparesFirst : CollectionVerb → Prop
  | .deleteMany _ | .count _ => True
  | _ => False

end CollectionVerb

namespace Dialect.Rejects

variable {d : Dialect} {fault : FilterFault}

/-- Where no order is asked for, what is rejected is the criteria. -/
theorem whereClause {v : Value} (h : d.Rejects .null fault (.criteria v)) :
    d.whereClause v = .error (.filter fault) :=
  h.resolve_right fun hordered => nomatch hordered.2

theorem not_predicate {selects : Value → Except Misuse Bool} :
    ¬ d.Rejects .null fault (.predicate selects) := nofun

end Dialect.Rejects

namespace Action

variable {α : Type} {s s' : Store} {c : Nat} {x : Collection} {f : Filter} {options : FindOptions}
  {v : Value} {fault : FilterFault}

theorem outcome_findOptions (h : FindOptions.ofValue v = .ok (.ok options)) :
    (findOptions v).outcome s = (.ok options, s) := by
  unfold findOptions
  rw [h]
  rfl

section

variable (hx : s.collections[c]? = some x)

include hx

theorem outcome_find_rejected (h : s.dialect.Rejects options.order fault f) :
    (find c f options).outcome s = (.error (.filter fault), s) :=
  outcome_bind_error (outcome_compile_rejected hx h)

theorem outcome_findOne_rejected (h : s.dialect.Rejects options.order fault f) :
    (findOne c f options).outcome s = (.error (.filter fault), s) :=
  outcome_bind_error (outcome_compile_rejected hx h)

theorem outcome_updateMany_rejected (patch : Value) (h : s.dialect.Rejects options.order fault f) :
    (updateMany c f patch options).outcome s = (.error (.filter fault), s) :=
  outcome_bind_error (outcome_find_rejected hx h)

theorem outcome_replaceOne_rejected (document : Value) (h : s.dialect.Rejects .null fault f) :
    (replaceOne c f document).outcome s = (.error (.filter fault), s) :=
  outcome_bind_error (outcome_findOne_rejected hx h)

/-- Where criteria are compiled only after the table was made sure of, that is all that is done when they
are rejected. -/
theorem outcome_prepared_rejected {k : Collection → Option Sql → Action α}
    (hready : (ensureTable c).outcome s = (.ok (), s'))
    (h : s.dialect.whereClause v = .error (.filter fault)) :
    (do
      ensureTable c
      let y ← collection c
      k y (← inDialect fun d => d.whereClause v)).outcome s = (.error (.filter fault), s') := by
  -- The table that was made changes neither the dialect nor which collections there are.
  have hreaches : Ensures (ensureTable c) s _ := ensures_ensureTable
  rw [Ensures, hready] at hreaches
  obtain ⟨⟨es, hs', -⟩, -⟩ := hreaches
  obtain ⟨x', hx', -⟩ := hs'.tables c x hx
  rw [← hs'.dialect] at h
  rw [outcome_bind_ok hready, outcome_bind_ok (outcome_collection hx')]
  exact outcome_bind_error (outcome_inDialect_rejected h)

theorem outcome_deleteMany_rejected (hready : (ensureTable c).outcome s = (.ok (), s'))
    (h : s.dialect.whereClause v = .error (.filter fault)) :
    (deleteMany c (.criteria v)).outcome s = (.error (.filter fault), s') := by
  unfold deleteMany
  exact outcome_prepared_rejected hx hready h

theorem outcome_count_rejected (hready : (ensureTable c).outcome s = (.ok (), s'))
    (h : s.dialect.whereClause v = .error (.filter fault)) :
    (count c (.criteria v)).outcome s = (.error (.filter fault), s') := by
  unfold count
  exact outcome_prepared_rejected hx hready h

end

end Action

namespace CollectionVerb

open DocStore.Action

variable {s s' : Store} {c : Nat} {x : Collection} {u : CollectionVerb} {f : Filter} {order : Value}
  {fault : FilterFault}

/-- A verb that makes sure of the table first does nothing else when its filter is rejected. -/
theorem outcome_run_prepared (hx : s.collections[c]? = some x) (hu : u.Searches f order)
    (hfirst : u.PreparesFirst) (hready : (Action.ensureTable c).outcome s = (.ok (), s'))
    (hrejects : s.dialect.Rejects order fault f) :
    (u.run c).outcome s = (.error (.filter fault), s') := by
  cases hu with
  | deleteMany f =>
    cases f with
    | predicate selects => exact absurd hrejects Dialect.Rejects.not_predicate
    | criteria v =>
      exact outcome_bind_error (outcome_deleteMany_rejected hx hready hrejects.whereClause)
  | count f =>
    cases f with
    | predicate selects => exact absurd hrejects Dialect.Rejects.not_predicate
    | criteria v =>
      exact outcome_bind_error (outcome_count_rejected hx hready hrejects.whereClause)
  | _ => exact hfirst.elim

/-- A verb whose filter or order is rejected does nothing, where it has no table to make first. -/
theorem outcome_run_rejected (hx : s.collections[c]? = some x) (hu : u.Searches f order)
    (hrejects : s.dialect.Rejects order fault f) (hready : u.PreparesFirst → x.isReady = true) :
    (u.run c).outcome s = (.error (.filter fault), s) := by
  by_cases hfirst : u.PreparesFirst
  · have htable : s.IsReady c x.table := ⟨x, hx, rfl, hready hfirst⟩
    exact outcome_run_prepared hx hu hfirst (outcome_ensureTable_of_isReady htable) hrejects
  · cases hu with
    | findOne f h =>
      refine (outcome_bind_ok (outcome_findOptions h)).trans ?_
      exact outcome_bind_error (outcome_findOne_rejected hx hrejects)
    | updateMany f patch h =>
      refine (outcome_bind_ok (outcome_findOptions h)).trans ?_
      exact outcome_bind_error (outcome_updateMany_rejected hx patch hrejects)
    | updateOne f patch => exact outcome_bind_error (outcome_updateMany_rejected hx patch hrejects)
    | replaceOne f document =>
      exact outcome_bind_error (outcome_replaceOne_rejected hx document hrejects)
    | deleteMany f => exact absurd trivial hfirst
    | count f => exact absurd trivial hfirst

end CollectionVerb

namespace Session

open SessionAction

variable {session : Session} {c h : Nat} {x : Collection} {k : Cursor} {f : Filter}
  {options : FindOptions} {v order : Value} {fault : FilterFault}

/-- A cursor is handed out without its search being compiled. -/
theorem outcome_cursor (hoptions : FindOptions.ofValue v = .ok (.ok options)) :
    (Request.cursor c f v).run.outcome session =
      (.ok (.cursor session.handles.length options.limit),
        { session with handles := session.handles ++ [.cursor ⟨c, f, options, false⟩] }) := by
  refine (outcome_bind_ok (outcome_ofAction (Action.outcome_findOptions hoptions))).trans ?_
  rfl

/-- A cursor whose search is rejected is consumed, and nothing else is done. -/
theorem outcome_beginCursor_rejected (hfresh : k.isConsumed = false)
    (hx : session.store.collections[k.collection]? = some x)
    (hrejects : session.store.dialect.Rejects k.options.order fault k.filter) :
    (beginCursor h k).outcome session =
      (.error (.filter fault),
        { session with handles := session.handles.set h (.cursor { k with isConsumed := true }) }) := by
  let marked : Session :=
    { session with handles := session.handles.set h (.cursor { k with isConsumed := true }) }
  have hcompile : (ofAction (Action.compile k.collection k.filter k.options)).outcome marked =
      (.error (.filter fault), marked) := outcome_ofAction (Action.outcome_compile_rejected hx hrejects)
  have hput : (put h (.cursor { k with isConsumed := true })).outcome session = (.ok (), marked) := rfl
  unfold beginCursor begin
  rw [hfresh]
  simp only [Bool.false_eq_true, if_false]
  rw [outcome_bind_ok hput, outcome_bind_error hcompile]

/-- What is asked of a collection by a filter or in an order that the dialect rejects changes nothing, where
it is not to make sure of the table first. A cursor is rejected when its reading begins. -/
theorem run_rejected (hx : session.store.collections[c]? = some x)
    (hrejects : session.store.dialect.Rejects order fault f) :
    (∀ u : CollectionVerb, u.Searches f order → (u.PreparesFirst → x.isReady = true) →
      (Request.verb (.on c u)).run.outcome session = (.error (.filter fault), session)) ∧
    (∀ v options, FindOptions.ofValue v = .ok (.ok options) →
      (Request.cursor c f v).run.outcome session =
        (.ok (.cursor session.handles.length options.limit),
          { session with handles := session.handles ++ [.cursor ⟨c, f, options, false⟩] })) ∧
    ∀ h options, session.handles[h]? = some (.cursor ⟨c, f, options, false⟩) → options.order = order →
      ∀ r ∈ [Request.toList h, .iterate h], r.run.outcome session =
        (.error (.filter fault),
          { session with handles := session.handles.set h (.cursor ⟨c, f, options, true⟩) }) := by
  refine ⟨fun u hu hready => ?_, fun v options => outcome_cursor, ?_⟩
  · exact outcome_bind_error (outcome_ofAction (CollectionVerb.outcome_run_rejected hx hu hrejects hready))
  · rintro h options hh rfl r hr
    have hbegin : (beginCursor h ⟨c, f, options, false⟩).outcome session = _ :=
      outcome_beginCursor_rejected rfl hx hrejects
    rcases List.mem_pair.mp hr with rfl | rfl
    · exact outcome_bind_error ((outcome_bind_ok (outcome_handle hh)).trans (outcome_bind_error hbegin))
    · exact outcome_bind_error ((outcome_bind_ok (outcome_handle hh)).trans (outcome_bind_error hbegin))

/-- A filter with an operator that there is not. -/
def misspelt : Value := .object [("a", .object [("$bogus", .int 1)])]

/-- A collection whose table is not known to be there, and a cursor over it. -/
def dropped : Session where
  store := { Store.ready .sqlite with collections := [⟨"items", "items", false⟩] }
  handles := [.cursor ⟨0, .criteria misspelt, {}, false⟩]

theorem run_rejected_misspelt :
    (Request.verb (.on 0 (.findOne (.criteria misspelt) .null))).run.outcome dropped =
        (.error (.filter (.unknownOperator "$bogus")), dropped) ∧
      (Request.iterate 0).run.outcome dropped =
        (.error (.filter (.unknownOperator "$bogus")),
          { dropped with handles := [.cursor ⟨0, .criteria misspelt, {}, true⟩] }) := by
  have hx : dropped.store.collections[0]? = some ⟨"items", "items", false⟩ := rfl
  have hrejects : dropped.store.dialect.Rejects .null (.unknownOperator "$bogus")
      (.criteria misspelt) := .inl rfl
  obtain ⟨hverb, -, hread⟩ := run_rejected hx hrejects
  have hsearches : (CollectionVerb.findOne (.criteria misspelt) .null).Searches (.criteria misspelt)
      (FindOptions.order {}) := .findOne _ rfl
  exact ⟨hverb _ hsearches nofun, hread 0 {} rfl rfl _ (by simp)⟩

/-- Deleting makes the table of a collection that was dropped before it rejects the criteria: two statements
are sent, and the collection takes its table for existing again. -/
theorem deleteMany_creates_of_rejected :
    let session := (fresh .sqlite).afterAll
      [⟨{}, .verb (.obtain (.str "items") .null)⟩, ⟨{}, .verb (.on 0 .drop)⟩]
    let turn : Turn := ⟨{}, .verb (.on 0 (.deleteMany (.criteria misspelt)))⟩
    session.store.dialect.Rejects .null (.unknownOperator "$bogus") (.criteria misspelt) ∧
      (sentStatements (session.after turn).store.trace).length =
        (sentStatements session.store.trace).length + 2 ∧
      session.store.collections.map Collection.isReady = [false] ∧
      (session.after turn).store.collections.map Collection.isReady = [true] :=
  ⟨.inl rfl, by decide +kernel, by decide +kernel, by decide +kernel⟩

end Session

end DocStore
