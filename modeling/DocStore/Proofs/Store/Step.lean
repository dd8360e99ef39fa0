import DocStore.Proofs.Store.Keeps
import DocStore.Proofs.Store.Table
import Mathlib.Logic.Relation

/-!
Steps of a store. Whatever is done with documents is done in steps of few
kinds, and a statement on the documents of a table is only sent by a collection
that knows its table to be there. Which tables are there is read off the
statements that were sent: one kind of step sends a statement, and one kind
each makes a collection, or makes it know that its table is there. What holds
of every step holds of every run.
-/

namespace DocStore

namespace Statement

/-- The table whose documents a statement reads, counts or writes. -/
def table? : Statement → Option Text
  | .select table .. => some table
  | .count table _ => some table
  | .insert table _ => some table
  | .update table .. => some table
  | .delete table _ => some table
  | .create .. | .drop .. | .presence _ | .written _ => none

/-- Whether a statement drops no table; what a caller wrote may drop any. -/
def KeepsTables : Statement → Prop
  | .drop .. | .written _ => False
  | _ => True

/-- What the statement begins with that makes a table; one that makes an index begins otherwise. -/
def creation (e : Engine) (table : Text) : Text :=
  "CREATE TABLE IF NOT EXISTS " ++ quoteName e.nameMark table ++ " ("

/-- The tables that are there after a statement. After what a caller wrote none is known to be there. -/
def tablesAfter (e : Engine) (tables : List Text) : Statement → List Text
  | .create table sql =>
    if creation e table <+: sql.render then table :: tables else tables
  | .drop table _ => tables.filter (· ≠ table)
  | .written _ => []
  | _ => tables

/-- Statements on documents come only while their tables are there. -/
def Orderly (e : Engine) : List Text → List Statement → Prop
  | _, [] => True
  | tables, st :: sts => (∀ t ∈ st.table?, t ∈ tables) ∧ Orderly e (st.tablesAfter e tables) sts

instance decidableOrderly (e : Engine) :
    (tables : List Text) → (sts : List Statement) → Decidable (Orderly e tables sts)
  | _, [] => inferInstanceAs (Decidable True)
  | tables, st :: sts =>
    have := decidableOrderly e (st.tablesAfter e tables) sts
    inferInstanceAs
      (Decidable ((∀ t ∈ st.table?, t ∈ tables) ∧ Orderly e (st.tablesAfter e tables) sts))

variable {e : Engine} {tables : List Text}

theorem orderly_append {sts sts' : List Statement} :
    Orderly e tables (sts ++ sts') ↔
      Orderly e tables sts ∧ Orderly e (sts.foldl (tablesAfter e) tables) sts' := by
  induction sts generalizing tables with
  | nil => simp [Orderly]
  | cons st sts ih => simp only [List.cons_append, Orderly, List.foldl_cons, ih, and_assoc]

theorem mem_tablesAfter {st : Statement} {t : Text} (ht : t ∈ tables) (hst : st.KeepsTables) :
    t ∈ st.tablesAfter e tables := by
  cases st with
  | create table sql =>
    show t ∈ if creation e table <+: sql.render then table :: tables else tables
    split
    · exact List.mem_cons_of_mem _ ht
    · exact ht
  | drop table sql => exact hst.elim
  | written text => exact hst.elim
  | _ => exact ht

end Statement

namespace Store

/-- The tables that are there, by the statements that were sent. -/
def tables (s : Store) : List Text :=
  (sentStatements s.trace).foldl (Statement.tablesAfter s.engine) []

/-- The collection of a number has this table and knows that it is there. -/
def IsReady (s : Store) (c : Nat) (table : Text) : Prop :=
  ∃ x : Collection, s.collections[c]? = some x ∧ x.table = table ∧ x.isReady = true

theorem IsReady.own {s : Store} {c : Nat} {table : Text} {x : Collection} (h : s.IsReady c table)
    (hx : s.collections[c]? = some x) : s.IsReady c x.table := by
  obtain ⟨y, hy, -, hready⟩ := h
  rw [hx] at hy
  cases hy
  exact ⟨x, hx, rfl, hready⟩

/-- Statements on documents were sent only while their tables were there, and what a collection knows
of its table is so. -/
structure Sound (s : Store) : Prop where
  orderly : Statement.Orderly s.engine [] (sentStatements s.trace)
  present : ∀ c table, s.IsReady c table → table ∈ s.tables

/-- What a query relies on stays: the options, and the tables of the collections. -/
structure Retains (s s' : Store) : Prop where
  options : s'.options = s.options
  tables : ∀ (c : Nat) (x : Collection), s.collections[c]? = some x →
    ∃ x' : Collection, s'.collections[c]? = some x' ∧ x'.table = x.table

theorem Retains.trans {s s' s'' : Store} (h : s.Retains s') (h' : s'.Retains s'') :
    s.Retains s'' where
  options := h'.options.trans h.options
  tables c x hx := by
    obtain ⟨y, hy, htable⟩ := h.tables c x hx
    obtain ⟨z, hz, htable'⟩ := h'.tables c y hy
    exact ⟨z, hz, htable'.trans htable⟩

theorem Retains.of_eq {s s' : Store} (hoptions : s'.options = s.options)
    (hcollections : s'.collections = s.collections) : s.Retains s' :=
  ⟨hoptions, fun _ x hx => ⟨x, by rw [hcollections]; exact hx, rfl⟩⟩

theorem Leads.retains {s s' : Store} {es : List Event} (h : s.Leads es s') : s.Retains s' where
  options := h.options
  tables c x hx := by
    obtain ⟨x', hx', -, htable⟩ := h.tables c x hx
    exact ⟨x', hx', htable⟩

/-- A step of a store; every statement that is sent meets a condition, and none drops a table. -/
inductive Step (P : Statement → Prop) (s : Store) : Store → Prop
  /-- Something is done that neither a statement nor a collection is touched by. -/
  | aside {s' : Store} (h : s.Leads [] s') (held : s'.holdings = s.holdings) : Step P s s'
  /-- Something is done to the library that sends nothing. -/
  | event {e : Event} (he : e.statement? = none) : Step P s { s with trace := s.trace ++ [e] }
  /-- A statement is sent; one on documents by a collection that knows its table to be there. -/
  | send (n : Nat) {st : Statement} (hP : P st) (hkeeps : st.KeepsTables)
    (hready : ∀ t ∈ st.table?, ∃ c, s.IsReady c t) :
    Step P s { s with trace := s.trace ++ [.send n st] }
  /-- A collection gets to know that its table is there. -/
  | ready {c : Nat} {x : Collection} (hx : s.collections[c]? = some x) (htable : x.table ∈ s.tables) :
    Step P s (s.setReady c true)
  /-- A collection is made whose table is there, as it knows, under a name that none is handed out for. -/
  | register {x : Collection} (htable : x.table ∈ s.tables) (hready : x.isReady = true)
    (hnew : s.registry.lookup x.name = none) : Step P s (s.register x)

/-- Steps of a store. -/
abbrev Steps (P : Statement → Prop) : Store → Store → Prop := Relation.ReflTransGen (Step P)

variable {P : Statement → Prop} {s s' : Store}

theorem tables_append {es : List Event} (h : s'.trace = s.trace ++ es) (he : s'.engine = s.engine) :
    s'.tables = (sentStatements es).foldl (Statement.tablesAfter s.engine) s.tables := by
  rw [tables, h, he, sentStatements_append, List.foldl_append, tables]

/-! ### What one step does -/

theorem Step.leads (h : s.Step P s') :
    ∃ es, s.Leads es s' ∧ ∀ st ∈ sentStatements es, P st ∧ st.KeepsTables := by
  have happend (e : Event) : s.Leads [e] { s with trace := s.trace ++ [e] } :=
    .of_eq rfl rfl rfl rfl rfl rfl
  have hnone : ∀ st ∈ sentStatements [], P st ∧ st.KeepsTables :=
    fun _ h => absurd h List.not_mem_nil
  cases h with
  | aside h => exact ⟨[], h, hnone⟩
  | @event e he =>
    refine ⟨[e], happend e, ?_⟩
    rw [sentStatements, List.filterMap_cons_none he]
    exact hnone
  | @send n st hP hkeeps => exact ⟨_, happend _, List.forall_mem_singleton.mpr ⟨hP, hkeeps⟩⟩
  | @ready c x => exact ⟨[], s.leads_setReady c true, hnone⟩
  | @register x => exact ⟨[], s.leads_register x, hnone⟩

/-- No step makes a table disappear. -/
theorem Step.mem_tables (h : s.Step P s') {t : Text} (ht : t ∈ s.tables) : t ∈ s'.tables := by
  -- On the statements of the step, none of which drops a table.
  obtain ⟨es, hs, hes⟩ := h.leads
  rw [tables_append hs.trace hs.engine]
  generalize s.tables = tables at ht
  generalize sentStatements es = sts at hes
  induction sts generalizing tables with
  | nil => exact ht
  | cons st sts ih =>
    obtain ⟨⟨-, hkeeps⟩, hsts⟩ := List.forall_mem_cons.mp hes
    exact ih _ (Statement.mem_tablesAfter ht hkeeps) hsts

theorem isReady_setReady {c d : Nat} {x : Collection} {t : Text} (hx : s.collections[c]? = some x) :
    (s.setReady c true).IsReady d t ↔ s.IsReady d t ∨ (d = c ∧ x.table = t) := by
  unfold IsReady
  show (∃ y : Collection, (s.collections.modify c fun x => { x with isReady := true })[d]? = some y ∧
    _) ↔ _
  rw [List.getElem?_modify]
  by_cases hd : c = d
  · subst hd
    simp only [hx, if_true, Option.map_eq_map, Option.map_some, Option.some.injEq, exists_eq_left',
      and_true, true_and]
    exact ⟨.inr, fun h => h.elim (·.1) id⟩
  · have hne : d ≠ c := fun h => hd h.symm
    simp [hd, hne]

theorem isReady_register {x : Collection} {d : Nat} {t : Text} (h : (s.register x).IsReady d t) :
    s.IsReady d t ∨ x.table = t := by
  obtain ⟨y, hy, ht, hready⟩ := h
  replace hy : (s.collections ++ [x])[d]? = some y := hy
  rw [List.getElem?_append] at hy
  split at hy
  · exact .inl ⟨y, hy, ht, hready⟩
  · obtain rfl := List.mem_singleton.mp (List.mem_of_getElem? hy)
    exact .inr ht

/-- A collection that knows of its table goes on to do so. -/
theorem Step.isReady (h : s.Step P s') {c : Nat} {t : Text} (hc : s.IsReady c t) : s'.IsReady c t := by
  cases h with
  | aside _ held =>
    obtain ⟨x, hx, hready⟩ := hc
    exact ⟨x, by rw [collections_of_holdings held]; exact hx, hready⟩
  | event => exact hc
  | send => exact hc
  | ready hx => exact (isReady_setReady hx).mpr (.inl hc)
  | @register y =>
    obtain ⟨x, hx, hready⟩ := hc
    obtain ⟨hlt, -⟩ := List.getElem?_eq_some_iff.mp hx
    exact ⟨x, (List.getElem?_append_left hlt).trans hx, hready⟩

/-- What a collection knows after a step it knew before, or its table is there. -/
theorem Step.isReady_or (h : s.Step P s') {c : Nat} {t : Text} (hc : s'.IsReady c t) :
    (∃ d, s.IsReady d t) ∨ t ∈ s'.tables := by
  cases h with
  | aside _ held =>
    obtain ⟨x, hx, hready⟩ := hc
    exact .inl ⟨c, x, by rw [← collections_of_holdings held]; exact hx, hready⟩
  | event => exact .inl ⟨c, hc⟩
  | send => exact .inl ⟨c, hc⟩
  | ready hx htable =>
    obtain hc | ⟨-, rfl⟩ := (isReady_setReady hx).mp hc
    · exact .inl ⟨c, hc⟩
    · exact .inr htable
  | register htable =>
    obtain hc | rfl := isReady_register hc
    · exact .inl ⟨c, hc⟩
    · exact .inr htable

theorem Step.sound (h : s.Step P s') (hs : s.Sound) : s'.Sound := by
  obtain ⟨es, hleads, -⟩ := h.leads
  constructor
  · rw [hleads.trace, hleads.engine, sentStatements_append, Statement.orderly_append]
    refine ⟨hs.orderly, ?_⟩
    -- The events of a step are known only by the kind of the step.
    have hes : sentStatements es = [] ∨
        ∃ st, sentStatements es = [st] ∧ ∀ t ∈ st.table?, ∃ c, s.IsReady c t := by
      have htrace := hleads.trace
      cases h with
      | aside h =>
        obtain rfl := List.append_cancel_left (h.trace.symm.trans htrace)
        exact .inl rfl
      | event he =>
        obtain rfl := List.append_cancel_left htrace
        exact .inl (List.filterMap_cons_none he)
      | send n hP hkeeps hready =>
        obtain rfl := List.append_cancel_left htrace
        exact .inr ⟨_, rfl, hready⟩
      | ready =>
        obtain rfl := List.append_cancel_left ((List.append_nil _).trans htrace)
        exact .inl rfl
      | register =>
        obtain rfl := List.append_cancel_left ((List.append_nil _).trans htrace)
        exact .inl rfl
    obtain hes | ⟨st, hes, hready⟩ := hes
    · rw [hes]
      trivial
    · rw [hes]
      refine ⟨fun t ht => ?_, trivial⟩
      obtain ⟨c, hc⟩ := hready t ht
      exact hs.present c t hc
  · intro c t hc
    obtain ⟨d, hd⟩ | ht := h.isReady_or hc
    · exact h.mem_tables (hs.present d t hd)
    · exact ht

/-! ### What steps do -/

namespace Steps

theorem leads (h : s.Steps P s') : ∃ es, s.Leads es s' ∧ ∀ st ∈ sentStatements es, P st := by
  induction h with
  | refl => exact ⟨[], .refl s, nofun⟩
  | tail _ hstep ih =>
    obtain ⟨es, hs, hes⟩ := ih
    obtain ⟨es', hs', hes'⟩ := hstep.leads
    refine ⟨es ++ es', hs.trans hs', ?_⟩
    rw [sentStatements_append]
    exact List.forall_mem_append.mpr ⟨hes, fun st hst => (hes' st hst).1⟩

theorem sound (h : s.Steps P s') (hs : s.Sound) : s'.Sound := by
  induction h with
  | refl => exact hs
  | tail _ hstep ih => exact hstep.sound ih

theorem isReady (h : s.Steps P s') {c : Nat} {t : Text} (hc : s.IsReady c t) : s'.IsReady c t := by
  induction h with
  | refl => exact hc
  | tail _ hstep ih => exact hstep.isReady ih

theorem exists_isReady (h : s.Steps P s') {c : Nat} (hc : ∃ t, s.IsReady c t) :
    ∃ t, s'.IsReady c t := hc.imp fun _ => h.isReady

theorem mem_tables (h : s.Steps P s') {t : Text} (ht : t ∈ s.tables) : t ∈ s'.tables := by
  induction h with
  | refl => exact ht
  | tail _ hstep ih => exact hstep.mem_tables ih

theorem retains (h : s.Steps P s') : s.Retains s' := by
  obtain ⟨es, hs, -⟩ := h.leads
  exact hs.retains

theorem engine (h : s.Steps P s') : s'.engine = s.engine := by
  obtain ⟨es, hs, -⟩ := h.leads
  exact hs.engine

theorem dialect (h : s.Steps P s') : s'.dialect = s.dialect := by
  obtain ⟨es, hs, -⟩ := h.leads
  exact hs.dialect

end Steps

end Store

end DocStore
