import DocStore.Proofs.Filter.Asks
import DocStore.Proofs.Store.Statement
import DocStore.Proofs.Store.Verb

/-!
What is deleted. Documents are deleted under a condition whenever their filter
asks for anything: under the one that criteria are compiled to, and under the
ids of the documents that a predicate has selected. Only a filter that asks for
nothing, because it counts as false or leaves all its parts out, deletes
everything.
-/

namespace DocStore

namespace Filter

/-- A text that deletes documents does so under a condition of the filter. -/
def Restricts (filter : Filter) (d : Dialect) (t : Text) : Prop :=
  ("DELETE" : Text) <+: t → ∃ (table : Text) (condition : Sql),
    filter.Deletes d (some ("WHERE " ++ condition)) ∧
      t = "DELETE FROM " ++ quoteName d.engine.nameMark table ++ " WHERE " ++ condition.render

variable {filter : Filter} {d : Dialect}

theorem restricts_of_head {t : Text} {c : CodePoint} (ht : t.head? = some c)
    (hc : c ≠ (CodePoint.ofChar 'D')) : filter.Restricts d t := by
  rintro ⟨rest, rfl⟩
  cases ht
  exact absurd rfl hc

theorem restricts_of_isPlain {st : Statement} (h : st.IsPlain) :
    filter.Restricts d (st.text d.engine) := by
  obtain ⟨c, hc, hhead⟩ := h.exists_head d.engine
  refine restricts_of_head hhead ?_
  rintro rfl
  exact absurd hc (by decide)

theorem restricts_of_select (table : Text) (condition order page : Option Sql) :
    filter.Restricts d ((Statement.select table condition order page).text d.engine) := by
  obtain ⟨rest, hrest⟩ := Statement.prefix_select d.engine table condition order page
  exact restricts_of_head (c := CodePoint.ofChar 'S') (by rw [← hrest]; rfl) (by decide)

theorem text_delete (e : Engine) (table : Text) (condition : Sql) :
    (Statement.delete table (some ("WHERE " ++ condition))).text e =
      "DELETE FROM " ++ quoteName e.nameMark table ++ " WHERE " ++ condition.render := by
  simp [Statement.text, Statement.sql, Statement.withClauses, Statement.name, Sql.join, Sql.render,
    Sql.code, Piece.text, List.intercalate]
  rfl

/-- Where a filter asks for something, documents are deleted under its condition. -/
theorem restricts_of_deletes (hasks : filter.asks = true) {table : Text} {condition : Option Sql}
    (h : filter.Deletes d condition) :
    filter.Restricts d ((Statement.delete table condition).text d.engine) := by
  -- A predicate deletes by ids; criteria have a clause because they ask for something.
  intro _
  have hclause : ∃ clause : Sql, condition = some ("WHERE " ++ clause) := by
    cases filter with
    | predicate selects =>
      obtain ⟨selector, literals, rfl⟩ := h
      exact ⟨_, rfl⟩
    | criteria v =>
      have hsome := Dialect.isSome_whereClause h
      rw [hasks] at hsome
      obtain ⟨sql, -, ⟨⟩⟩ := exists_of_bind_ok h
      cases sql with
      | none => cases hsome
      | some sql => exact ⟨sql, rfl⟩
  obtain ⟨clause, rfl⟩ := hclause
  exact ⟨table, clause, h, text_delete ..⟩

end Filter

namespace Action

variable {s : Store} {filter : Filter}

theorem within_deleteMany_restricts (c : Nat) (hasks : filter.asks = true) :
    Within (fun st => filter.Restricts s.dialect (st.text s.dialect.engine)) (deleteMany c filter) s
      fun _ _ => True :=
  within_deleteMany (fun _ => Filter.restricts_of_isPlain)
    (fun _ _ => Filter.restricts_of_deletes hasks)
    fun st hst => by
      cases st with
      | select table condition ordered page =>
        exact Filter.restricts_of_select table condition ordered page
      | _ => cases filter <;> exact hst.elim

end Action

namespace Verb

/-- A verb deletes the documents that a filter selects. -/
def DeletesBy (filter : Filter) : Verb → Prop
  | .remove _ f => f = filter
  | .on _ (.deleteMany f) => f = filter
  | _ => False

/-- Unless a filter asks for nothing, whatever is sent to delete the documents that it selects deletes
them under its condition. -/
theorem run_restricts {s : Store} {v : Verb} {filter : Filter} (hv : v.DeletesBy filter)
    (hasks : filter.asks = true) :
    ∃ es, (v.run.outcome s).2.trace = s.trace ++ es ∧
      ∀ t ∈ sentTexts s.engine es, filter.Restricts s.dialect t := by
  have hrun : Action.Within (fun st => filter.Restricts s.dialect (st.text s.dialect.engine)) v.run s
      fun _ _ => True := by
    cases v with
    | remove name f =>
      cases hv
      have hobtain : Action.Within (fun st => filter.Restricts s.dialect (st.text s.dialect.engine))
          (Action.obtain name) s fun _ _ => True :=
        Action.within_obtain (fun _ => Filter.restricts_of_isPlain) name
      refine hobtain.bind fun c s₁ hs₁ _ => ?_
      rw [← hs₁.dialect]
      exact (Action.within_deleteMany_restricts c hasks).bind fun _ _ _ _ => .pure trivial
    | on c verb =>
      cases verb with
      | deleteMany f =>
        cases hv
        exact (Action.within_deleteMany_restricts c hasks).bind fun _ _ _ _ => .pure trivial
      | _ => exact hv.elim
    | _ => exact hv.elim
  obtain ⟨es, hleads, hes⟩ := hrun.steps.leads
  refine ⟨es, hleads.trace, ?_⟩
  rw [sentTexts_eq]
  exact List.forall_mem_map.mpr hes

/-- Clauses and conditions that ask for nothing beside a negation that asks for something. -/
def nested : Filter :=
  .criteria (.object [(Glue.and.key, .list [.object [], .object [("a", .object [])]]),
    (Glue.or.key, .tuple [.object [("b", .object [("$not", .object [("$gt", .int 1)])])]])])

theorem run_restricts_nested :
    (Verb.on 0 (.deleteMany nested)).DeletesBy nested ∧ nested.asks = true ∧
      ∃ es, ((Verb.on 0 (.deleteMany nested)).run.outcome (Store.ready .sqlite)).2.trace = [] ++ es ∧
        (∀ t ∈ sentTexts .sqlite es, nested.Restricts (Store.ready .sqlite).dialect t) ∧
        ∃ t ∈ sentTexts .sqlite es, ("DELETE" : Text) <+: t := by
  have hdeletes : (Verb.on 0 (.deleteMany nested)).DeletesBy nested := rfl
  have hasks : nested.asks = true := rfl
  obtain ⟨es, htrace, hes⟩ := run_restricts (s := Store.ready .sqlite) hdeletes hasks
  refine ⟨hdeletes, hasks, es, htrace, hes, ?_⟩
  obtain rfl := htrace
  decide +kernel

/-- The texts that are sent to delete the documents of criteria. -/
def deletionTexts (criteria : Members) : List Text :=
  sentTexts .sqlite ((Verb.on 0 (.deleteMany (.criteria (.object criteria)))).run.outcome
    (Store.ready .sqlite)).2.trace

/-- Criteria that are not empty and yet ask for nothing: every document is deleted. -/
theorem run_deletes_everything :
    deletionTexts [(Glue.and.key, .list [])] = ["DELETE FROM \"c\""] ∧
      deletionTexts [("a", .object [])] = ["DELETE FROM \"c\""] := by
  decide +kernel

end Verb

end DocStore
