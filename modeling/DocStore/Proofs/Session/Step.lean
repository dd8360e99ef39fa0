import DocStore.Proofs.Store.Lifecycle
import DocStore.Session.Request

/-!
Sessions in steps. What a session does to its store is steps of the store, and
the queries that a caller holds on to go on to read the tables of their
collections, however long ago they were handed out.
-/

namespace DocStore

/-- The query whose answer is still read. -/
def RelatedReading.query? : RelatedReading → Option Query
  | .streaming d => some d.query
  | _ => none

/-- The query whose answer an iterator reads. -/
def Iterator.query? : Iterator → Option Query
  | .documents d => some d.query
  | .related _ reading => reading.query?
  | _ => none

/-- The query whose answer is read through a handle. -/
def Handle.query? : Handle → Option Query
  | .iterator i => i.query?
  | _ => none

namespace Session

/-- The queries that a caller holds on to read the tables of their collections. -/
def Fits (session : Session) : Prop :=
  ∀ x ∈ session.handles, ∀ q ∈ x.query?, q.Fits (fun _ => True) session.store

theorem Fits.of_nil {session : Session} (h : session.handles = []) : session.Fits := by
  intro x hx
  rw [h] at hx
  cases hx

theorem Fits.retained {session session' : Session} (h : session.Fits)
    (hhandles : session'.handles = session.handles) (hstore : session.store.Retains session'.store) :
    session'.Fits := by
  intro x hx q hq
  rw [hhandles] at hx
  exact (h x hx q hq).retained hstore

end Session

namespace SessionAction

variable {α β : Type} {session : Session}

/-- What an action comes to from a session: its result, and the session after it. -/
def outcome (a : SessionAction α) (session : Session) : Except Fault α × Session :=
  (a.run.run session).run

theorem outcome_bind_ok {a : SessionAction α} {f : α → SessionAction β} {session' : Session} {x : α}
    (h : a.outcome session = (.ok x, session')) :
    (a >>= f).outcome session = (f x).outcome session' := by
  show ((ExceptT.bindCont f (a.outcome session).1).run (a.outcome session).2).run = _
  rw [h]
  rfl

theorem outcome_bind_error {a : SessionAction α} {f : α → SessionAction β} {session' : Session}
    {fault : Fault} (h : a.outcome session = (.error fault, session')) :
    (a >>= f).outcome session = (.error fault, session') := by
  show ((ExceptT.bindCont f (a.outcome session).1).run (a.outcome session).2).run = _
  rw [h]
  rfl

theorem outcome_ofAction {α : Type} {a : Action α} {r : Except Fault α}
    {s' : Store} (h : a.outcome session.store = (r, s')) :
    (ofAction a).outcome session = (r, { session with store := s' }) := by
  show (let (r, store) := a.outcome session.store
    (r, { session with store := store })) = _
  rw [h]

theorem outcome_get_bind {α : Type} {f : Session → SessionAction α} :
    (get >>= f).outcome session = (f session).outcome session := rfl

theorem outcome_handle {h : Nat} {x : Handle} (hx : session.handles[h]? = some x) :
    (handle h).outcome session = (.ok x, session) := by
  unfold handle
  rw [outcome_get_bind, hx]
  rfl

/-- An action takes steps of the store and keeps what is handed out fitting; where it does not fail,
its result and the session after it meet a condition. -/
def Within (a : SessionAction α) (session : Session) (Q : α → Session → Prop) : Prop :=
  session.Fits →
    session.store.Steps (fun _ => True) (a.outcome session).2.store ∧ (a.outcome session).2.Fits ∧
      ∀ x, (a.outcome session).1 = .ok x → Q x (a.outcome session).2

namespace Within

variable {a : SessionAction α} {f : α → SessionAction β} {Q Q' : α → Session → Prop}
  {R : β → Session → Prop}

theorem pure {x : α} (h : Q x session) : Within (Pure.pure x) session Q :=
  fun hfits => ⟨.refl, hfits, by rintro _ ⟨⟩; exact h⟩

theorem throw (fault : Fault) : Within (throw fault : SessionAction α) session Q :=
  fun hfits => ⟨.refl, hfits, nofun⟩

theorem bind (ha : Within a session Q)
    (hf : ∀ x session', session.store.Steps (fun _ => True) session'.store → Q x session' →
      Within (f x) session' R) : Within (a >>= f) session R := by
  intro hfits
  obtain ⟨hs, hfits', hQ⟩ := ha hfits
  rcases h : a.outcome session with ⟨r, session'⟩
  rw [h] at hs hfits' hQ
  cases r with
  | ok x =>
    obtain ⟨hs', hfits'', hR⟩ := hf x session' hs (hQ x rfl) hfits'
    rw [outcome_bind_ok h]
    exact ⟨hs.trans hs', hfits'', hR⟩
  | error fault =>
    rw [outcome_bind_error h]
    exact ⟨hs, hfits', nofun⟩

theorem mono (ha : Within a session Q) (h : ∀ x session', Q x session' → Q' x session') :
    Within a session Q' := by
  intro hfits
  obtain ⟨hs, hfits', hQ⟩ := ha hfits
  exact ⟨hs, hfits', fun x hx => h x _ (hQ x hx)⟩

theorem get_bind {f : Session → SessionAction β} (h : Within (f session) session R) :
    Within (get >>= f) session R := h

theorem weaken (ha : Within a session Q) : Within a session fun _ _ => True :=
  ha.mono fun _ _ _ => trivial

end Within

/-- What is done to the store leaves what is handed out as it is. -/
theorem within_ofAction {a : Action α} {Q : α → Store → Prop}
    (ha : Action.Within (fun _ => True) a session.store Q) :
    Within (ofAction a) session fun x session' => Q x session'.store := by
  intro hfits
  obtain ⟨hs, hQ⟩ := ha
  exact ⟨hs, hfits.retained rfl hs.retains, hQ⟩

theorem within_handle (h : Nat) :
    Within (handle h) session fun x session' => session' = session ∧ x ∈ session.handles := by
  unfold handle
  refine .get_bind ?_
  cases hx : session.handles[h]? with
  | some x => exact .pure ⟨rfl, List.mem_of_getElem? hx⟩
  | none => exact .throw _

theorem within_handOut {x : Handle} (hx : ∀ q ∈ x.query?, q.Fits (fun _ => True) session.store) :
    Within (handOut x) session fun _ _ => True := by
  intro hfits
  refine ⟨.refl, ?_, fun _ _ => trivial⟩
  intro y hy q hq
  obtain hy | hy := List.mem_append.mp hy
  · exact hfits y hy q hq
  · obtain rfl := List.mem_singleton.mp hy
    exact hx q hq

theorem within_put (h : Nat) {x : Handle} (hx : ∀ q ∈ x.query?, q.Fits (fun _ => True) session.store) :
    Within (put h x) session fun _ _ => True := by
  intro hfits
  refine ⟨.refl, ?_, fun _ _ => trivial⟩
  intro y hy q hq
  obtain hy | rfl := List.mem_or_eq_of_mem_set hy
  · exact hfits y hy q hq
  · exact hx q hq

/-- What a handle holds reads the table of its collection. -/
theorem within_handle_fits (h : Nat) :
    Within (handle h) session fun x session' =>
      session' = session ∧ ∀ q ∈ x.query?, q.Fits (fun _ => True) session.store := by
  intro hfits
  obtain ⟨hs, hfits', hQ⟩ := within_handle h hfits
  refine ⟨hs, hfits', fun x hx => ?_⟩
  obtain ⟨hsession, hmem⟩ := hQ x hx
  exact ⟨hsession, hfits x hmem⟩

/-! ### Reading through handles -/

theorem within_begin (k : Cursor) {mark : Cursor → SessionAction Unit}
    (hmark : ∀ k session, Within (mark k) session fun _ _ => True) :
    Within (begin k mark) session fun d session' => d.query.Fits (fun _ => True) session'.store := by
  have hbegin {session : Session} : Within (do
      mark { k with isConsumed := true }
      return (← ofAction (Action.compile k.collection k.filter k.options)).documents) session
        fun d session' => d.query.Fits (fun _ => True) session'.store := by
    refine (hmark _ session).bind fun _ session₁ _ _ => ?_
    have hcompile : Action.Within (fun _ => True)
        (Action.compile k.collection k.filter k.options) session₁.store _ :=
      Action.within_compile k.collection fun _ _ => trivial
    exact (within_ofAction hcompile).bind fun q session₂ _ hq => .pure hq.2
  unfold begin
  split
  · refine (within_ofAction (Action.within_collection k.collection)).bind fun x session₁ _ _ => ?_
    exact (Within.throw _).bind (Q := fun _ _ => True) fun _ _ _ _ => hbegin
  · exact hbegin

theorem within_beginCursor (h : Nat) (k : Cursor) :
    Within (beginCursor h k) session fun d session' =>
      d.query.Fits (fun _ => True) session'.store :=
  within_begin k fun _ _ => within_put h (by nofun)

theorem within_beginRelated (h : Nat) (r : RelatedDocuments) :
    Within (beginRelated h r) session fun d session' =>
      d.query.Fits (fun _ => True) session'.store :=
  within_begin r.cursor fun _ _ => within_put h (by nofun)

theorem within_relatedOf (h : Nat) : Within (relatedOf h) session fun _ _ => True := by
  unfold relatedOf
  refine (within_handle h).bind fun x session₁ _ _ => ?_
  split
  · exact .pure trivial
  · exact .throw _

theorem within_fillAll (h : Nat) (documents : List Value) :
    Within (fillAll h documents) session fun _ _ => True := by
  unfold fillAll
  refine (within_relatedOf h).bind fun r session₁ _ _ => ?_
  refine (within_ofAction (Action.within_fillAll (fun _ => trivial) ..)).bind ?_
  rintro ⟨filled, l⟩ session₂ - -
  exact (within_put h (by nofun)).bind fun _ _ _ _ => .pure trivial

theorem within_fillOne (h : Nat) (document : Value) :
    Within (fillOne h document) session fun _ _ => True := by
  unfold fillOne
  refine (within_relatedOf h).bind fun r session₁ _ _ => ?_
  refine (within_ofAction (Action.within_fill (fun _ => trivial) ..)).bind ?_
  rintro ⟨filled, l⟩ session₂ - -
  exact (within_put h (by nofun)).bind fun _ _ _ _ => .pure trivial

/-- All that is left of documents whose query reads the table of its collection. -/
theorem within_documents {d : Documents} (hd : d.query.Fits (fun _ => True) session.store) :
    Within (ofAction d.toList) session fun _ _ => True :=
  (within_ofAction (Documents.within_toList (fun _ _ => trivial) hd)).weaken

theorem within_toList (h : Nat) : Within (toList h) session fun _ _ => True := by
  unfold toList
  refine (within_handle h).bind fun x session₁ _ _ => ?_
  split
  · exact (within_beginCursor h _).bind fun d _ _ hd => within_documents hd
  · exact .pure trivial
  · refine (within_beginRelated h _).bind fun d session₂ _ hd => ?_
    exact (within_documents hd).bind fun documents _ _ _ => within_fillAll h documents
  · exact .throw _

theorem within_iterate (h : Nat) : Within (iterate h) session fun _ _ => True := by
  unfold iterate
  refine (within_handle h).bind fun x session₁ _ _ => ?_
  split
  · refine (within_beginCursor h _).bind fun d session₂ _ hd => within_handOut ?_
    rintro q ⟨⟩
    exact hd
  · exact within_handOut nofun
  · exact within_handOut nofun
  · exact .pure trivial

theorem within_beginReading (source : Nat) :
    Within (beginReading source) session fun reading session' =>
      ∀ q ∈ reading.query?, q.Fits (fun _ => True) session'.store := by
  unfold beginReading
  refine (within_relatedOf source).bind fun r session₁ _ _ => ?_
  refine (within_beginRelated source r).bind fun d session₂ _ hd => ?_
  split
  · exact (within_documents hd).bind fun _ _ _ _ => .pure nofun
  · refine .pure ?_
    rintro q ⟨⟩
    exact hd

/-- The next of documents whose query reads the table of its collection. -/
theorem within_nextDocument {d : Documents} (hd : d.query.Fits (fun _ => True) session.store) :
    Within (ofAction d.next) session fun p session' =>
      p.2.query.Fits (fun _ => True) session'.store := by
  intro hfits
  -- The query stays the same while its documents come, but the store moves on.
  obtain ⟨hs, hfits', hnext⟩ :=
    within_ofAction (Documents.within_next (fun _ _ => trivial) hd) hfits
  refine ⟨hs, hfits', fun p hp => ?_⟩
  show p.2.query.Fits _ _
  rw [(hnext p hp).1]
  exact hd.retained hs.retains

theorem within_nextRelated (source : Nat) {reading : RelatedReading}
    (hreading : ∀ q ∈ reading.query?, q.Fits (fun _ => True) session.store) :
    Within (nextRelated source reading) session fun p session' =>
      ∀ q ∈ p.2.query?, q.Fits (fun _ => True) session'.store := by
  unfold nextRelated
  -- What is read is the same whether the reading begins only now or goes on.
  extract_lets read
  have hread (reading : RelatedReading) (session : Session)
      (h : ∀ q ∈ reading.query?, q.Fits (fun _ => True) session.store) :
      Within (read reading) session fun p session' =>
        ∀ q ∈ p.2.query?, q.Fits (fun _ => True) session'.store := by
    unfold read
    split
    next d =>
      refine (within_nextDocument (h d.query rfl)).bind ?_
      rintro ⟨v, d'⟩ session₁ _ hd'
      cases v with
      | none => exact .pure nofun
      | some v =>
        refine (within_fillOne source v).bind fun filled session₂ hs _ => .pure ?_
        rintro q ⟨⟩
        exact hd'.retained hs.retains
    next v rest => exact (within_fillOne source v).bind fun _ _ _ _ => .pure nofun
    next => exact .pure nofun
  split
  · exact (within_beginReading source).bind fun _ _ _ h => hread _ _ h
  · refine Within.bind (Q := fun reading session' =>
      ∀ q ∈ reading.query?, q.Fits (fun _ => True) session'.store) (.pure hreading) ?_
    exact fun _ _ _ h => hread _ _ h

theorem within_nextOf {i : Iterator}
    (hi : ∀ q ∈ i.query?, q.Fits (fun _ => True) session.store) :
    Within (nextOf i) session fun p session' =>
      ∀ q ∈ p.2.query?, q.Fits (fun _ => True) session'.store := by
  unfold nextOf
  split
  next d =>
    refine (within_nextDocument (hi d.query rfl)).bind ?_
    rintro ⟨v, d'⟩ session₁ _ hd'
    refine .pure ?_
    rintro q ⟨⟩
    exact hd'
  next source position =>
    refine (within_handle source).bind fun x session₁ _ _ => ?_
    split
    · split
      · exact .pure nofun
      · exact .pure nofun
    · exact .pure nofun
  next source reading =>
    refine (within_nextRelated source hi).bind ?_
    rintro ⟨v, reading'⟩ session₁ _ hreading'
    exact .pure hreading'
  next => exact .pure nofun

theorem within_next (h : Nat) : Within (next h) session fun _ _ => True := by
  unfold next
  refine (within_handle_fits h).bind ?_
  rintro x _ - ⟨rfl, hx⟩
  split
  next i =>
    refine (within_put h (by nofun)).bind fun _ session₁ hs _ => ?_
    have hi (q : Query) (hq : q ∈ i.query?) : q.Fits (fun _ => True) session₁.store :=
      (hx q hq).retained hs.retains
    refine (within_nextOf hi).bind ?_
    rintro ⟨v, i'⟩ session₂ _ hi'
    exact (within_put h (by exact hi')).bind fun _ _ _ _ => .pure trivial
  next => exact .throw _

theorem within_take (h n : Nat) : Within (take h n) session fun _ _ => True := by
  induction n generalizing session with
  | zero => exact .pure trivial
  | succ n ih =>
    unfold take
    refine (within_next h).bind fun v session₁ _ _ => ?_
    split
    · exact .pure trivial
    · refine ih.bind ?_
      rintro ⟨vs, ended⟩ session₂ - -
      exact .pure trivial

theorem within_relate (h : Nat) (kind : RelationKind) (relations : Value) :
    Within (relate h kind relations) session fun _ _ => True := by
  unfold relate
  refine (within_handle h).bind fun x session₁ _ _ => ?_
  split
  · refine (within_ofAction (Action.within_fillAll (fun _ => trivial) ..)).bind ?_
    rintro ⟨filled, l⟩ session₂ - -
    exact within_put h (by nofun)
  · exact within_put h (by nofun)
  · exact .throw _

theorem within_occurrences (h : Nat) (v : Value) :
    Within (occurrences h v) session fun _ _ => True := by
  unfold occurrences
  refine (within_handle h).bind fun x session₁ _ _ => ?_
  split
  · exact .pure trivial
  · exact .throw _

theorem within_isConsumed (h : Nat) : Within (isConsumed h) session fun _ _ => True := by
  unfold isConsumed
  refine (within_handle h).bind fun x session₁ _ _ => ?_
  split
  · exact .pure trivial
  · exact .throw _

end SessionAction

end DocStore
