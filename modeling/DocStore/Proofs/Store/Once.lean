import DocStore.Proofs.Store.Drain
import DocStore.Proofs.Store.Kept

/-!
Queries that are sent once. Documents that wait for their query send it when the
first of them is asked for, after what makes the table of their collection;
whatever is asked of them afterwards sends nothing, however that went. The
collection itself is there for as long as the store, under its number and by its
name, even when it was dropped or the store was closed.
-/

namespace DocStore

namespace Store

variable {s s' : Store} {c : Nat} {name table : Text}

/-- A collection is there under its number, by its name and with its table. -/
def Holds (s : Store) (c : Nat) (name table : Text) : Prop :=
  ∃ x : Collection, s.collections[c]? = some x ∧ x.name = name ∧ x.table = table

namespace Holds

theorem of_leads {es : List Event} (h : s.Holds c name table) (hs : s.Leads es s') :
    s'.Holds c name table := by
  obtain ⟨x, hx, rfl, rfl⟩ := h
  exact hs.tables c x hx

theorem of_steps {P : Statement → Prop} (h : s.Holds c name table) (hs : s.Steps P s') :
    s'.Holds c name table := by
  obtain ⟨es, hs', -⟩ := hs.leads
  exact h.of_leads hs'

theorem of_holdings (h : s.Holds c name table) (held : s'.holdings = s.holdings) :
    s'.Holds c name table := by
  unfold Holds
  rw [collections_of_holdings held]
  exact h

/-- Dropping the table of a collection leaves the collection there. -/
theorem of_drops {d : Nat} {r : Except Fault Unit} (h : s.Holds c name table)
    (hdrops : Action.Drops s d r s') : s'.Holds c name table := by
  cases hdrops with
  | fails leads => exact h.of_leads leads
  | @succeeds x _ _ s₁ _ _ leads _ _ idles =>
    have hready : (s₁.setReady d false).Holds c name table :=
      (h.of_leads leads).of_leads (s₁.leads_setReady d false)
    have hforgotten : ((s₁.setReady d false).forget x.name).Holds c name table := hready
    exact hforgotten.of_holdings idles.held

end Holds

end Store

open DocStore.Action in
/-- Whatever a store is asked for, its collections are there afterwards. -/
theorem Verb.ensures_holds {s : Store} {c : Nat} {name table : Text} (v : Verb)
    (h : s.Holds c name table) : Ensures v.run s fun _ s' => s'.Holds c name table := by
  have hkeeps {a : Action Answer} (ha : Keeps Store.holdings a) :
      Ensures a s fun _ s' => s'.Holds c name table :=
    (ha.ensures s).mono fun _ _ held => h.of_holdings held
  have hdrop {d : Nat} {s : Store} (h : s.Holds c name table) :
      Ensures (CollectionVerb.drop.run d) s fun _ s' => s'.Holds c name table :=
    ensures_drops.bind (fun _ _ hdrops => h.of_drops hdrops) fun _ _ hdrops => h.of_drops hdrops
  by_cases hv : v.IsOrdinary
  · exact h.of_steps (Verb.within_run (s := s) hv).1
  cases v with
  | dropCollection v =>
    have hobtain := within_obtain (P := fun _ => True) (s := s) (fun _ _ => trivial) v
    refine Ensures.bind hobtain ?_ ?_
    · rintro d s₁ ⟨hsteps, -⟩
      exact hdrop (h.of_steps hsteps)
    · rintro fault s₁ ⟨hsteps, -⟩
      exact h.of_steps hsteps
  | on d verb =>
    cases verb with
    | drop => exact hdrop h
    | _ => exact absurd trivial hv
  | connect =>
    have hconnect : Ensures Action.connect s fun _ s' => s.Idles s' := idle_connect s
    refine hconnect.bind (fun _ _ hidles => ?_) fun _ _ hidles => ?_
    · exact h.of_holdings hidles.held
    · exact h.of_holdings hidles.held
  | close =>
    have hcleared : Store.Holds { s with registry := [] } c name table := h
    refine ensures_close.bind (fun _ _ hidles => ?_) fun _ _ hidles => ?_
    · exact hcleared.of_holdings hidles.1.held
    · exact hcleared.of_holdings hidles.1.held
  | send text => exact hkeeps ((keeps_change _).bind fun _ => .pure _)
  | rows text => exact hkeeps ((keeps_rows _).bind fun _ => .pure _)
  | eachRow text => exact hkeeps ((keeps_eachRow _).bind fun _ => .pure _)
  | _ => exact absurd trivial hv

/-! ### What is sent -/

/-- What is sent for a query: what makes its table, and after that the query, at most once. -/
def Query.SendsOnce (q : Query) (e : Engine) (sent : List Text) : Prop :=
  ∃ creates : List Text, (∀ t ∈ creates, IsCreate t) ∧
    (sent = creates ∨ sent = creates ++ [q.statement.text e])

/-- Of what is sent for a query no more than one text is a query. -/
theorem Query.SendsOnce.length_filter_le {q : Query} {e : Engine} {sent : List Text}
    (h : q.SendsOnce e sent) : (sent.filter Action.isQuery).length ≤ 1 := by
  obtain ⟨creates, hcreates, hsent⟩ := h
  have hnone : creates.filter Action.isQuery = [] := List.filter_eq_nil_iff.mpr fun t ht => by
    rw [(hcreates t ht).isQuery]
    exact Bool.false_ne_true
  rcases hsent with rfl | rfl
  · rw [hnone]
    exact Nat.zero_le 1
  · rw [List.filter_append, hnone, List.nil_append]
    exact List.length_filter_le _ _

namespace Action

variable {α β : Type} {s : Store} {T : List Text → Prop}

/-- An action sends texts that meet a condition; where it does not fail, its result meets another
one. -/
def Sends (T : List Text → Prop) (a : Action α) (s : Store) (R : α → Prop) : Prop :=
  Ensures a s fun r s' =>
    (∃ es, s.Leads es s' ∧ T (sentTexts s.engine es)) ∧ ∀ x, r = .ok x → R x

namespace Sends

variable {a : Action α} {f : α → Action β} {R R' : α → Prop} {Q : β → Prop}

/-- What takes steps without any statement sends nothing. -/
theorem of_within (ha : Within (fun _ => False) a s fun x _ => R x) : Sends (· = []) a s R := by
  refine Ensures.mono ha ?_
  rintro r s' ⟨hsteps, hR⟩
  obtain ⟨es, hs', hes⟩ := hsteps.leads
  refine ⟨⟨es, hs', ?_⟩, hR⟩
  rw [sentTexts_eq, List.eq_nil_iff_forall_not_mem.mpr hes]
  rfl

/-- The second of two actions sends nothing. -/
theorem bind (ha : Sends T a s R)
    (hf : ∀ x s', R x → Within (fun _ => False) (f x) s' fun y _ => Q y) :
    Sends T (a >>= f) s Q := by
  refine Ensures.bind ha ?_ ?_
  · rintro x s₁ ⟨⟨es, hs₁, hT⟩, hR⟩
    refine (of_within (hf x s₁ (hR x rfl))).mono ?_
    rintro r s₂ ⟨⟨es', hs₂, hnone⟩, hQ⟩
    refine ⟨⟨es ++ es', hs₁.trans hs₂, ?_⟩, hQ⟩
    rw [hs₁.engine] at hnone
    rw [sentTexts_append, hnone, List.append_nil]
    exact hT
  · rintro fault s₁ ⟨hT, -⟩
    exact ⟨hT, forall_of_error⟩

end Sends

end Action

namespace Documents

open DocStore.Action

variable {s : Store} {d : Documents} {P : Statement → Prop}

/-- The query was sent, or it failed to be. -/
def HasBegun (d : Documents) : Prop := d.reading ≠ .waiting

/-- Asking for the first document makes the table and then sends the query; either may fail. -/
theorem sends_opened (hd : d.reading = .waiting) :
    Sends (d.query.SendsOnce s.engine) d.opened s HasBegun := by
  unfold opened
  rw [hd]
  refine ensures_ensureTable.bind ?_ ?_
  · rintro _ s₁ ⟨⟨es, hs₁, hes⟩, -⟩
    refine (ensures_send _).bind ?_ ?_
    · rintro p s₂ (⟨-, -, _, h⟩ | ⟨-, hsent⟩)
      · cases h
      · refine ⟨⟨_, hs₁.trans hsent.leads, _, hes, .inr ?_⟩, ?_⟩
        · rw [sentTexts_append]
          rfl
        · rintro d' ⟨⟩
          exact nofun
    · rintro fault s₂ (⟨-, rfl, -⟩ | ⟨-, hsent⟩)
      · exact ⟨⟨es, hs₁, _, hes, .inl rfl⟩, forall_of_error⟩
      · refine ⟨⟨_, hs₁.trans hsent.leads, _, hes, .inr ?_⟩, forall_of_error⟩
        rw [sentTexts_append]
        rfl
  · rintro fault s₁ ⟨⟨es, hs₁, hes⟩, -⟩
    exact ⟨⟨es, hs₁, _, hes, .inl rfl⟩, forall_of_error⟩

theorem within_nextAmong_begun (d : Documents) (cursor : Nat) (refusal : Option Refusal) (skip : Nat)
    (rows : List Row) :
    Within P (nextAmong d cursor refusal skip rows) s fun p _ => p.2.HasBegun := by
  induction rows generalizing s skip with
  | nil => exact (within_endRows ..).bind fun _ _ _ _ => .pure (by rintro ⟨⟩)
  | cons row rows ih =>
    unfold nextAmong
    refine (within_takeRow ..).bind ?_
    rintro ⟨v, skip'⟩ s₁ - -
    cases v with
    | none => exact ih skip'
    | some v => exact .pure (by rintro ⟨⟩)

/-- The next document after the query was sent. -/
theorem within_next_begun (hd : d.HasBegun) :
    Within P (match d.reading with
      | .under cursor reply =>
        if d.left = some 0 then do
          record (.close cursor)
          return (none, { d with reading := .finished })
        else nextAmong d cursor reply.refusal d.skip reply.rows
      | _ => return (none, d)) s fun p _ => p.2.HasBegun := by
  split
  · split
    · exact (within_record rfl).bind fun _ _ _ _ => .pure (by rintro ⟨⟩)
    · exact within_nextAmong_begun ..
  · exact .pure hd

theorem sends_next_waiting (hd : d.reading = .waiting) :
    Sends (d.query.SendsOnce s.engine) d.next s fun p => p.2.HasBegun :=
  (sends_opened hd).bind fun _ _ hbegun => within_next_begun hbegun

theorem sends_toList_waiting (hd : d.reading = .waiting) :
    Sends (d.query.SendsOnce s.engine) d.toList s fun _ => True :=
  (sends_opened hd).bind fun d' _ _ => within_toListOpened d'

/-- Documents whose query was sent send nothing more. -/
theorem sends_next_begun (hd : d.HasBegun) : Sends (· = []) d.next s fun p => p.2.HasBegun := by
  have hopened : d.opened = pure d := by
    unfold opened
    split
    next hwaiting => exact absurd hwaiting hd
    next => rfl
  unfold next
  rw [hopened, pure_bind]
  exact .of_within (within_next_begun hd)

theorem sends_abandon (d : Documents) : Sends (· = []) d.abandon s fun _ => True := by
  unfold abandon
  split
  · exact .of_within (within_record rfl)
  · exact .of_within (.pure trivial)

end Documents

end DocStore
