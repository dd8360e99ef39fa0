import DocStore.Proofs.Store.Verb

/-!
The life of a store besides its documents. Opening and closing the connection
sends no statement and leaves the collections alone. A table that is dropped is
no longer there, and the collection by which it was dropped knows so; any other
collection that has the table does not get to know it.
-/

namespace DocStore

namespace Store

/-- Nothing is sent between two stores, and the collections stay as they are. -/
structure Idles (s s' : Store) : Prop where
  trace : ∃ es, s'.trace = s.trace ++ es ∧ sentStatements es = []
  held : s'.holdings = s.holdings

namespace Idles

variable {s s' s'' : Store}

theorem of_eq (htrace : s'.trace = s.trace) (hheld : s'.holdings = s.holdings) : s.Idles s' :=
  ⟨⟨[], htrace.trans (List.append_nil _).symm, rfl⟩, hheld⟩

theorem trans (h : s.Idles s') (h' : s'.Idles s'') : s.Idles s'' := by
  obtain ⟨es, hs, hes⟩ := h.trace
  obtain ⟨es', hs', hes'⟩ := h'.trace
  refine ⟨⟨es ++ es', ?_, ?_⟩, h'.held.trans h.held⟩
  · rw [hs', hs, List.append_assoc]
  · rw [sentStatements_append, hes, hes', List.append_nil]

theorem sentStatements_eq (h : s.Idles s') : sentStatements s'.trace = sentStatements s.trace := by
  obtain ⟨es, hs, hes⟩ := h.trace
  rw [hs, sentStatements_append, hes, List.append_nil]

theorem engine (h : s.Idles s') : s'.engine = s.engine :=
  congrArg ConnectionOptions.engine (options_of_holdings h.held)

theorem retains (h : s.Idles s') : s.Retains s' :=
  .of_eq (options_of_holdings h.held) (collections_of_holdings h.held)

theorem sound (h : s.Idles s') (hs : s.Sound) : s'.Sound where
  orderly := by
    rw [h.engine, h.sentStatements_eq]
    exact hs.orderly
  present c table := by
    rw [tables, h.engine, h.sentStatements_eq]
    rintro ⟨x, hx, hready⟩
    rw [collections_of_holdings h.held] at hx
    exact hs.present c table ⟨x, hx, hready⟩

end Idles

/-- No other collection knows of the table of a collection that it is there. -/
def IsAlone (s : Store) (c : Nat) : Prop :=
  ∀ x : Collection, s.collections[c]? = some x → ∀ d, s.IsReady d x.table → d = c

end Store

namespace Action

variable {α β : Type}

/-- An action that sends nothing and leaves the collections alone. -/
def Idle (a : Action α) : Prop := ∀ s, Ensures a s fun _ s' => s.Idles s'

namespace Idle

variable {a : Action α} {f : α → Action β}

theorem pure (x : α) : Idle (Pure.pure x) := fun _ => .of_eq rfl rfl

theorem throw (fault : Fault) : Idle (throw fault : Action α) := fun _ => .of_eq rfl rfl

theorem bind (ha : Idle a) (hf : ∀ x, Idle (f x)) : Idle (a >>= f) := by
  intro s
  refine Ensures.bind (ha s) (fun x s' hs' => ?_) fun _ _ hs' => hs'
  exact (hf x s').mono fun _ _ h => hs'.trans h

theorem get_bind {f : Store → Action β} (h : ∀ s, Idle (f s)) : Idle (get >>= f) := fun s => h s s

theorem modify_bind {g : Store → Store} {f : PUnit → Action β} (hf : Idle (f ()))
    (hg : ∀ s : Store, s.Idles (g s)) : Idle (modify g >>= f) := by
  intro s
  exact (hf (g s)).mono fun _ _ h => (hg s).trans h

theorem record {e : Event} (he : e.statement? = none) : Idle (record e) :=
  fun _ => ⟨⟨[e], rfl, List.filterMap_cons_none he⟩, rfl⟩

theorem log (level : Level) (message : Text) (metadata : Members) :
    Idle (log level message metadata) := fun _ => .of_eq rfl rfl

theorem ofMisuse (r : Except Misuse α) : Idle (ofMisuse r) := by
  cases r with
  | ok x => exact pure x
  | error fault => exact throw _

end Idle

theorem idle_setUpJournal : Idle setUpJournal := by
  unfold setUpJournal
  refine .get_bind fun s => ?_
  split
  · refine (Idle.record rfl).bind fun _ => ?_
    split
    · exact .pure ()
    · split
      · exact .log _ _ _
      · exact .throw _
  · exact .pure ()

theorem idle_setUp : Idle setUp := by
  unfold setUp
  refine .get_bind fun s => ?_
  split
  · exact .pure ()
  · exact .record rfl
  · exact (Idle.record rfl).bind fun _ => idle_setUpJournal

theorem idle_failConnecting (r : Refusal) : Idle (failConnecting r) := by
  unfold failConnecting
  split
  · exact .get_bind fun s => (Idle.log _ _ _).bind fun _ => .throw _
  · exact .throw _

theorem idle_connect : Idle connect := by
  unfold connect
  refine .get_bind fun s => ?_
  -- Two branches go on with opening the connection, and three with asking whether it is open.
  extract_lets opened connected
  have hopened (x : Unit) : Idle (opened x) :=
    .modify_bind (idle_setUp.bind fun _ => .log _ _ _) fun _ => .of_eq rfl rfl
  have hconnected (x : Unit) : Idle (connected x) := by
    unfold connected
    split
    · exact .pure ()
    · refine (Idle.ofMisuse _).bind fun parameters => (Idle.record rfl).bind fun _ => ?_
      split
      · exact (idle_failConnecting _).bind hopened
      · exact hopened ()
  split
  · split
    · exact (Idle.throw _).bind hconnected
    · exact hconnected ()
  · exact hconnected ()

theorem idle_disconnect : Idle disconnect := by
  unfold disconnect
  refine .get_bind fun s => ?_
  split
  · refine (Idle.record rfl).bind fun _ => ?_
    exact .modify_bind (.log _ _ _) fun _ => .of_eq rfl rfl
  · exact .pure ()

/-- Once it is closed, a store hands out no collection again. -/
theorem ensures_close {s : Store} : Ensures close s fun _ s' =>
    ({ s with registry := [] } : Store).Idles s' ∧ s.Retains s' := by
  unfold close
  rw [ensures_modify_bind]
  exact (idle_disconnect _).mono fun _ _ h => ⟨h, h.retains.options, h.retains.tables⟩

end Action

/-! ### Dropping a table -/

namespace Store

variable {s s' : Store}

/-- Once a table is dropped and the collection that dropped it knows so, what collections know is so
again, if no other one knew of the table. -/
theorem Sound.dropped {c : Nat} {x : Collection} {sql : Sql} {es : List Event} (hs : s.Sound)
    (hx : s.collections[c]? = some x) (halone : s.IsAlone c) (hleads : s.Leads es s')
    (hsent : sentStatements es = [.drop x.table sql]) (hcollections : s'.collections = s.collections) :
    (s'.setReady c false).Sound := by
  constructor
  · show Statement.Orderly s'.engine [] (sentStatements s'.trace)
    rw [hleads.trace, hleads.engine, sentStatements_append, Statement.orderly_append, hsent]
    exact ⟨hs.orderly, nofun, trivial⟩
  · rintro d table ⟨y, hy, htable, hready⟩
    have htables : (s'.setReady c false).tables = s.tables.filter (· ≠ x.table) := by
      show s'.tables = _
      rw [tables_append hleads.trace hleads.engine, hsent]
      rfl
    replace hy : (s'.collections.modify c fun x => { x with isReady := false })[d]? = some y := hy
    rw [hcollections, List.getElem?_modify] at hy
    -- The collection that dropped the table knows so; any other one that knows of its own table
    -- has another table, which is still there.
    by_cases hd : c = d
    · subst hd
      simp only [hx, if_true, Option.map_eq_map, Option.map_some, Option.some.injEq] at hy
      subst hy
      cases hready
    · simp only [hd, if_false, id_map'] at hy
      have hknown : s.IsReady d table := ⟨y, hy, htable, hready⟩
      rw [htables]
      refine List.mem_filter.mpr ⟨hs.present d table hknown, decide_eq_true ?_⟩
      rintro rfl
      exact hd (halone x hx d hknown).symm

end Store

namespace Action

variable {s : Store}

/-- What dropping comes to: the collections stay as they are, or the table is dropped, and after that its
collection knows so and is handed out no more. -/
inductive Drops (s : Store) (c : Nat) : Except Fault Unit → Store → Prop where
  /-- Only the database refuses it once it is sent. -/
  | fails {fault : Fault} {es : List Event} {s' : Store} (leads : s.Leads es s')
    (held : s'.holdings = s.holdings) (unsent : s.script.failure = none → sentStatements es = []) :
    Drops s c (.error fault) s'
  | succeeds {x : Collection} {sql : Sql} {es : List Event} {s₁ s' : Store}
    (holds : s.collections[c]? = some x) (leads : s.Leads es s₁)
    (sent : sentStatements es = [.drop x.table sql]) (held : s₁.holdings = s.holdings)
    (idles : ((s₁.setReady c false).forget x.name).Idles s') : Drops s c (.ok ()) s'

theorem ensures_drops {c : Nat} : Ensures (drop c) s (Drops s c) := by
  have hstays {s' : Store} {fault : Fault} (hleads : s.Leads [] s') (hheld : s'.holdings = s.holdings) :
      Drops s c (.error fault) s' := .fails hleads hheld fun _ => rfl
  unfold drop
  refine ensures_collection.bind ?_ ?_
  · rintro x _ ⟨rfl, hx⟩
    replace hx := (hx x).mpr rfl
    refine ((ensures_inDialect _).and ((keeps_inDialect _).ensures _)).bind ?_ ?_
    · rintro sql s₁ ⟨⟨-, hs₁⟩, hheld₁⟩
      refine ((ensures_change _).and ((keeps_change _).ensures _)).bind ?_ ?_
      · rintro v s₂ ⟨⟨-, -, _, h⟩ | ⟨es, hs₂, hsent, -⟩, hheld₂⟩
        · cases h
        · exact .succeeds hx (hs₁.trans hs₂) hsent (hheld₂.trans hheld₁) (.of_eq rfl rfl)
      · rintro fault s₂ ⟨⟨-, rfl, -⟩ | ⟨es, hs₂, -, -, hok⟩, hheld₂⟩
        · exact hstays hs₁ hheld₁
        · refine .fails (hs₁.trans hs₂) (hheld₂.trans hheld₁) fun hworks => ?_
          obtain ⟨_, ⟨⟩⟩ := hok (hs₁.failure.trans hworks)
    · rintro fault s₁ ⟨⟨-, hs₁⟩, hheld₁⟩
      exact hstays hs₁ hheld₁
  · rintro fault _ ⟨rfl, -⟩
    exact hstays (.refl _) rfl

/-- However a drop ends, what queries rely on stays. -/
theorem Drops.retains {c : Nat} {r : Except Fault Unit} {s' : Store} (h : Drops s c r s') :
    s.Retains s' := by
  cases h with
  | fails leads => exact leads.retains
  | @succeeds x _ _ s₁ _ _ leads _ _ idles =>
    have hready : s₁.Retains ((s₁.setReady c false).forget x.name) :=
      (s₁.leads_setReady c false).retains.trans (.of_eq rfl rfl)
    exact (leads.retains.trans hready).trans idles.retains

theorem ensures_drop {c : Nat} (hworks : s.script.failure = none) (halone : s.IsAlone c)
    (hs : s.Sound) : Ensures (drop c) s fun _ s' => s'.Sound ∧ s.Retains s' := by
  refine ensures_drops.mono fun r s' h => ⟨?_, h.retains⟩
  cases h with
  | fails leads held unsent =>
    have hidles : s.Idles s' := ⟨⟨_, leads.trace, unsent hworks⟩, held⟩
    exact hidles.sound hs
  | succeeds holds leads sent held idles =>
    have hdropped := hs.dropped holds halone leads sent (Store.collections_of_holdings held)
    exact idles.sound ⟨hdropped.orderly, hdropped.present⟩

end Action

namespace Verb

/-- A verb drops a table only where no other collection knows of the table that it is there; what a
caller wrote may drop any table. -/
def DropsAlone (s : Store) : Verb → Prop
  | .on c .drop => s.IsAlone c
  | .dropCollection name =>
    ∀ c s', (Action.obtain name).outcome s = (.ok c, s') → s'.IsAlone c
  | .send _ | .rows _ | .eachRow _ => False
  | _ => True

open DocStore.Action in
/-- No verb makes a collection believe that its table is there when it is not, as long as tables are
dropped by the only collections that know of them. -/
theorem ensures_sound {s : Store} {v : Verb} (hfailure : s.script.failure = none)
    (halone : v.DropsAlone s) (hs : s.Sound) :
    Ensures v.run s fun _ s' => s'.Sound ∧ s.Retains s' := by
  -- Ordinary verbs are steps; what is left drops a table, sends nothing, or is not allowed.
  by_cases hv : v.IsOrdinary
  · obtain ⟨hsteps, -⟩ := Verb.within_run (s := s) hv
    exact ⟨hsteps.sound hs, hsteps.retains⟩
  have hdrop {c : Nat} {s : Store} (hfailure : s.script.failure = none) (halone : s.IsAlone c)
      (hs : s.Sound) :
      Ensures (CollectionVerb.drop.run c) s fun _ s' => s'.Sound ∧ s.Retains s' :=
    (ensures_drop hfailure halone hs).bind (fun _ _ h => h) fun _ _ h => h
  have hidle {α : Type} {a : Action α} (ha : Idle a) :
      Ensures a s fun _ s' => s'.Sound ∧ s.Retains s' :=
    (ha s).mono fun _ _ h => ⟨h.sound hs, h.retains⟩
  cases v with
  | dropCollection name =>
    have hobtain := within_obtain (P := fun _ => True) (s := s) (fun _ _ => trivial) name
    have hreached : Ensures (Action.obtain name) s fun r s' =>
        (Action.obtain name).outcome s = (r, s') := rfl
    refine Ensures.bind (hreached.and hobtain) ?_ ?_
    · rintro c s₁ ⟨houtcome, hsteps, -⟩
      obtain ⟨es, hleads, -⟩ := hsteps.leads
      refine (hdrop (hleads.failure.trans hfailure) (halone c s₁ houtcome) (hsteps.sound hs)).mono ?_
      rintro r s' ⟨hsound, hretains⟩
      exact ⟨hsound, hleads.retains.trans hretains⟩
    · rintro fault s₁ ⟨-, hsteps, -⟩
      exact ⟨hsteps.sound hs, hsteps.retains⟩
  | on c verb =>
    cases verb with
    | drop => exact hdrop hfailure halone hs
    | _ => exact absurd trivial hv
  | connect => exact hidle (idle_connect.bind fun _ => .get_bind fun _ => .pure _)
  | close =>
    have hclosed : Store.Sound { s with registry := [] } := ⟨hs.orderly, hs.present⟩
    have hclose : Ensures Action.close s fun _ s' => s'.Sound ∧ s.Retains s' :=
      ensures_close.mono fun _ _ h => ⟨h.1.sound hclosed, h.2⟩
    exact hclose.bind (fun _ _ h => h) fun _ _ h => h
  | send => exact halone.elim
  | rows => exact halone.elim
  | eachRow => exact halone.elim
  | _ => exact absurd trivial hv

end Verb

end DocStore
