import DocStore.Proofs.Session.Hands

/-!
Uses of a cursor. A cursor is asked for its documents, at once or through an
iterator, and iterators are read, left unread and asked again, in any order and
whatever else the store is asked for in between; each of this may fail. A cursor
is fresh first, may then wait for the first document to be asked of its iterator,
and is done in the end.
-/

namespace DocStore

/-- What is done with a cursor and with the iterators that it hands out, which have the numbers in
which they were handed out. -/
inductive CursorUse where
  | iterate
  | toList
  /-- Some next documents are asked of an iterator. -/
  | next (iterator count : Nat)
  /-- The rest of an iterator is left unread. -/
  | abandon (iterator : Nat)

namespace CursorUse

/-- The cursor is asked for its documents, at once or through an iterator. -/
def Begins : CursorUse → Prop
  | .iterate | .toList => True
  | _ => False

/-- What is asked of a session; the iterators are handed out after the handle of their cursor. -/
def run (h : Nat) : CursorUse → SessionAction Response
  | .iterate => (Request.iterate h).run
  | .toList => (Request.toList h).run
  | .next i count => (Request.next (h + 1 + i) count).run
  | .abandon i => do
    SessionAction.abandon (h + 1 + i)
    return .answer .nothing

end CursorUse

/-- A use of a cursor, with what the store was asked for since the one before, and with what the
database does meanwhile. -/
structure CursorTurn where
  since : List (Script × Verb) := []
  script : Script := {}
  use : CursorUse

/-- What came of a use of a cursor. -/
structure Deed where
  use : CursorUse
  /-- The session that the use met. -/
  met : Session
  result : Except Fault Response
  /-- The texts that were sent. -/
  sent : List Text

namespace Session

/-- What comes of a use of the cursor of a handle. -/
def deed (session : Session) (h : Nat) (use : CursorUse) : Deed where
  use := use
  met := session
  result := ((use.run h).outcome session).1
  sent := sentTexts session.store.engine
    (((use.run h).outcome session).2.store.trace.drop session.store.trace.length)

/-- The session that a use of a cursor meets. -/
def meeting (session : Session) (t : CursorTurn) : Session :=
  (session.afterAll (t.since.map fun asked => ⟨asked.1, .verb asked.2⟩)).turnTo t.script

/-- What comes of some uses of the cursor of a handle, one after another. -/
def deeds (h : Nat) : Session → List CursorTurn → List Deed
  | _, [] => []
  | session, t :: turns =>
    (session.meeting t).deed h t.use ::
      deeds h ((t.use.run h).outcome (session.meeting t)).2 turns

end Session

/-- How far a cursor is used. -/
inductive Phase where
  /-- It was not asked for its documents yet. -/
  | fresh
  /-- An iterator was handed out, and nothing was asked of it. -/
  | waiting (q : Query)
  | done

namespace Session

variable {session : Session} {h : Nat} {k : Cursor}

/-- The cursor of a handle is used so far. -/
def Stands (session : Session) (h : Nat) (k : Cursor) : Phase → Prop
  | .fresh => session.Hands h k []
  | .waiting q => session.Hands h k.consumed [.documents q.documents]
  | .done => session.Spends h k.consumed

theorem Stands.of_handles {session' : Session} {phase : Phase} (hstands : session.Stands h k phase)
    (hhandles : session'.handles = session.handles) : session'.Stands h k phase := by
  cases phase with
  | fresh => exact Hands.of_handles hstands hhandles
  | waiting q => exact Hands.of_handles hstands hhandles
  | done =>
    obtain ⟨its, hands, hspent⟩ := hstands
    exact ⟨its, hands.of_handles hhandles, hspent⟩

end Session

/-! ### What one use comes to -/

/-- What is sent for the documents of a cursor that are asked for in a store. -/
def Cursor.SendsOnce (k : Cursor) (s : Store) (sent : List Text) : Prop :=
  sent = [] ∨ ∃ q : Query, q.Finds s k.collection k.filter k.options ∧ q.SendsOnce s.engine sent

/-- The reply to whoever is the first to ask a cursor for its documents in a store: an iterator if the
search can be compiled, or all documents that are found. -/
def Cursor.firstReply (k : Cursor) (h : Nat) (s : Store) : CursorUse → Except Fault Response
  | .iterate => ((Action.compile k.collection k.filter k.options).outcome s).1.map fun _ =>
      .handle (h + 1)
  | .toList => ((Action.find k.collection k.filter k.options).outcome s).1.map fun documents =>
      .answer (.documents documents)
  | _ => .error (.misuse .noMember)

/-- How a use of a cursor takes it from where it stands. -/
inductive Deed.Passes (h : Nat) (k : Cursor) (name : Text) (d : Deed) : Phase → Phase → Prop where
  /-- The search is compiled, and an iterator is handed out. -/
  | begins {q : Query} (use : d.use = .iterate) (sent : d.sent = [])
    (result : d.result = k.firstReply h d.met.store .iterate)
    (finds : q.Finds d.met.store k.collection k.filter k.options) : Passes h k name d .fresh (.waiting q)
  /-- The search cannot be compiled. -/
  | rejected (use : d.use = .iterate) (sent : d.sent = [])
    (result : d.result = k.firstReply h d.met.store .iterate) : Passes h k name d .fresh .done
  /-- All documents are read, or as many as can be. -/
  | reads (use : d.use = .toList) (sent : k.SendsOnce d.met.store d.sent)
    (result : d.result = k.firstReply h d.met.store .toList) : Passes h k name d .fresh .done
  /-- The cursor was asked before. -/
  | again {phase : Phase} (begun : phase ≠ .fresh) (use : d.use.Begins) (sent : d.sent = [])
    (result : d.result = .error (.consumed name)) : Passes h k name d phase phase
  /-- The first document is asked for. -/
  | fetches {q : Query} {count : Nat} (use : d.use = .next 0 (count + 1))
    (sent : q.SendsOnce d.met.store.engine d.sent) : Passes h k name d (.waiting q) .done
  | abandons {q : Query} (use : d.use = .abandon 0) (sent : d.sent = []) :
    Passes h k name d (.waiting q) .done
  /-- An iterator is asked for that is not there, or that has nothing more to send. -/
  | idles {phase : Phase} (use : ¬ d.use.Begins) (sent : d.sent = [])
    (missed : phase ≠ .done → ∀ i count, d.use = .next i (count + 1) →
      d.result = .error (.misuse .noMember)) : Passes h k name d phase phase

namespace SessionAction

variable {session : Session} {h : Nat} {k : Cursor} {name : Text}

section

variable (hands : session.Hands h k []) (hfresh : k.isConsumed = false)

include hands hfresh

/-- Whoever asks a cursor first has its search compiled, and nothing is sent for that. -/
theorem sends_beginCursor : Sends (· = []) (beginCursor h k) session fun r session' =>
    r = ((Action.compile k.collection k.filter k.options).outcome session.store).1.map
        Query.documents ∧
      session'.store = ((Action.compile k.collection k.filter k.options).outcome session.store).2 ∧
      session'.Hands h k.consumed [] ∧
      ∀ q, ((Action.compile k.collection k.filter k.options).outcome session.store).1 = .ok q →
        q.Finds session.store k.collection k.filter k.options := by
  have hcompile : Action.Sends (· = []) (Action.compile k.collection k.filter k.options) session.store
      fun q => q.Finds session.store k.collection k.filter k.options :=
    .of_within ((Action.within_compile_finds ..).mono fun _ _ _ h => h.2)
  obtain ⟨⟨es, hleads, hnone⟩, hfinds⟩ := hcompile
  unfold Sends
  rw [outcome_beginCursor hfresh rfl]
  exact ⟨es, hleads, hnone, rfl, rfl, hands.put_cursor k.consumed, hfinds⟩

theorem sends_iterate_fresh : Sends (· = []) (CursorUse.iterate.run h) session fun r session' =>
    r = k.firstReply h session.store .iterate ∧
      (session'.Stands h k .done ∨ ∃ q : Query,
        q.Finds session.store k.collection k.filter k.options ∧ session'.Stands h k (.waiting q)) := by
  have hiterate : Sends (· = []) (iterate h) session fun r session' =>
      r.map Response.handle = k.firstReply h session.store .iterate ∧
        (session'.Stands h k .done ∨ ∃ q : Query,
          q.Finds session.store k.collection k.filter k.options ∧
            session'.Stands h k (.waiting q)) := by
    unfold iterate
    refine .after (outcome_handle hands.cursor) rfl ?_
    refine (sends_beginCursor hands hfresh).bind_quiet ?_ ?_
    · rintro d session₁ ⟨hd, -, hands₁, hfinds⟩
      unfold Cursor.firstReply
      rcases hcompile : ((Action.compile k.collection k.filter k.options).outcome session.store).1
        with fault | q
      · rw [hcompile] at hd
        cases hd
      · rw [hcompile] at hd
        cases hd
        have hlength : session₁.handles.length = h + 1 := hands₁.length_eq
        refine .nothing rfl rfl ⟨?_, .inr ⟨q, hfinds q hcompile, hands₁.handOut _⟩⟩
        exact congrArg (fun n => Except.ok (Response.handle n)) hlength
    · rintro fault session₁ ⟨hfault, -, hands₁, -⟩
      unfold Cursor.firstReply
      rcases hcompile : ((Action.compile k.collection k.filter k.options).outcome session.store).1
        with fault' | q
      · rw [hcompile] at hfault
        cases hfault
        exact ⟨rfl, .inl ⟨[], hands₁, List.forall_mem_nil _⟩⟩
      · rw [hcompile] at hfault
        cases hfault
  exact hiterate.reply (fun _ _ hr => hr) fun _ _ hr => hr

theorem sends_toList_fresh : Sends (k.SendsOnce session.store) (CursorUse.toList.run h) session
    fun r session' => r = k.firstReply h session.store .toList ∧ session'.Stands h k .done := by
  have htoList : Sends (k.SendsOnce session.store) (toList h) session fun r session' =>
      r.map (fun documents => Response.answer (.documents documents)) =
          k.firstReply h session.store .toList ∧ session'.Stands h k .done := by
    unfold toList
    refine .after (outcome_handle hands.cursor) rfl ?_
    refine (sends_beginCursor hands hfresh).quiet_bind ?_ ?_ (.inl rfl)
    · rintro d session₁ ⟨hd, hstore, hands₁, hfinds⟩ hengine
      rcases hcompile : (Action.compile k.collection k.filter k.options).outcome session.store
        with ⟨fault | q, s₁⟩
      · rw [hcompile] at hd
        cases hd
      · rw [hcompile] at hd hstore hfinds
        cases hd
        have hfind : (Action.find k.collection k.filter k.options).outcome session.store =
            q.documents.toList.outcome session₁.store := by
          rw [hstore]
          exact Action.outcome_bind_ok hcompile
        refine (sends_ofAction (Documents.sends_toList_waiting rfl)).mono ?_ ?_
        · intro texts htexts
          rw [hengine] at htexts
          exact .inr ⟨q, hfinds q rfl, htexts⟩
        · rintro r session₂ ⟨rfl, hhandles, -⟩
          unfold Cursor.firstReply
          rw [hfind]
          exact ⟨rfl, [], hands₁.of_handles hhandles, List.forall_mem_nil _⟩
    · rintro fault session₁ ⟨hfault, hstore, hands₁, -⟩
      rcases hcompile : (Action.compile k.collection k.filter k.options).outcome session.store
        with ⟨fault' | q, s₁⟩
      · rw [hcompile] at hfault
        cases hfault
        have hfind : (Action.find k.collection k.filter k.options).outcome session.store = _ :=
          Action.outcome_bind_error hcompile
        unfold Cursor.firstReply
        rw [hfind]
        exact ⟨rfl, [], hands₁, List.forall_mem_nil _⟩
      · rw [hcompile] at hfault
        cases hfault
  exact htoList.reply (fun _ _ hr => hr) fun _ _ hr => hr

end

/-- A cursor that was asked for its documents is not asked again. -/
theorem sends_begins_consumed {its : List Iterator} {use : CursorUse} {table : Text}
    (hands : session.Hands h k.consumed its)
    (hholds : session.store.Holds k.collection name table) (huse : use.Begins) :
    Sends (· = []) (use.run h) session fun r session' =>
      r = .error (.consumed name) ∧ session' = session := by
  obtain ⟨x, hx, rfl, -⟩ := hholds
  have hbegin : (beginCursor h k.consumed).outcome session = (.error (.consumed x.name), session) :=
    outcome_beginCursor_consumed hx
  cases use with
  | iterate =>
    have hiterate : (iterate h).outcome session = (.error (.consumed x.name), session) :=
      (outcome_bind_ok (outcome_handle hands.cursor)).trans (outcome_bind_error hbegin)
    exact .nothing (outcome_bind_error hiterate) rfl ⟨rfl, rfl⟩
  | toList =>
    have htoList : (toList h).outcome session = (.error (.consumed x.name), session) :=
      (outcome_bind_ok (outcome_handle hands.cursor)).trans (outcome_bind_error hbegin)
    exact .nothing (outcome_bind_error htoList) rfl ⟨rfl, rfl⟩
  | next i count => exact huse.elim
  | abandon i => exact huse.elim

/-- An iterator that was not handed out gives nothing. -/
theorem sends_missing {its : List Iterator} {use : CursorUse} {i : Nat}
    (hands : session.Hands h k its) (hi : its[i]? = none)
    (huse : use = .abandon i ∨ ∃ count, use = .next i count) :
    Sends (· = []) (use.run h) session fun r session' => session' = session ∧
      ∀ count, use = .next i (count + 1) → r = .error (.misuse .noMember) := by
  have hx : session.handles[h + 1 + i]? = none := by
    rw [hands.iterator, hi]
    rfl
  rcases huse with rfl | ⟨count, rfl⟩
  · have habandon : (abandon (h + 1 + i)).outcome session = (.error (.misuse .noMember), session) :=
      outcome_bind_error (outcome_handle_none hx)
    exact .nothing (outcome_bind_error habandon) rfl ⟨rfl, nofun⟩
  · cases count with
    | zero => exact .nothing rfl rfl ⟨rfl, nofun⟩
    | succ count =>
      have htake : (take (h + 1 + i) (count + 1)).outcome session =
          (.error (.misuse .noMember), session) := outcome_bind_error (outcome_next_none hx)
      exact .nothing (outcome_bind_error htake) rfl ⟨rfl, fun _ _ => rfl⟩

/-- The first documents that are asked of an iterator are those for which the query is sent. -/
theorem sends_take_waiting {q : Query} (hands : session.Hands h k.consumed [.documents q.documents])
    (count : Nat) : Sends (q.SendsOnce session.store.engine) ((CursorUse.next 0 (count + 1)).run h)
      session fun _ session' => session'.Stands h k .done := by
  have hfirst : Sends (q.SendsOnce session.store.engine) (next (h + 1 + 0)) session
      fun _ session' => session'.Stands h k .done := by
    refine (sends_next_documents hands rfl (Documents.sends_next_waiting rfl)).mono
      (fun _ h => h) ?_
    rintro r session' ⟨j, hj, hands'⟩
    exact ⟨[j], hands', List.forall_mem_singleton.mpr hj⟩
  have htake : Sends (q.SendsOnce session.store.engine) (take (h + 1 + 0) (count + 1)) session
      fun _ session' => session'.Stands h k .done := by
    refine hfirst.bind_quiet ?_ fun _ _ hdone => hdone
    rintro v session' hdone
    cases v with
    | none => exact .nothing rfl rfl hdone
    | some v =>
      exact (sends_take_done hdone 0 count).bind_quiet (fun _ _ h => .nothing rfl rfl h)
        fun _ _ h => h
  exact htake.bind_quiet (fun _ _ h => .nothing rfl rfl h) fun _ _ h => h

/-- An iterator that is left unread before its first document sends nothing. -/
theorem sends_abandon_waiting {q : Query}
    (hands : session.Hands h k.consumed [.documents q.documents]) :
    Sends (· = []) ((CursorUse.abandon 0).run h) session
      fun _ session' => session'.Stands h k .done := by
  have hx : session.handles[h + 1 + 0]? = some (.iterator (.documents q.documents)) :=
    hands.iterator 0
  have habandon : (abandon (h + 1 + 0)).outcome session = (.ok (), { session with
      handles := session.handles.set (h + 1 + 0) (.iterator .finished) }) :=
    (outcome_bind_ok (outcome_handle hx)).trans rfl
  refine .after habandon rfl (.nothing rfl rfl ?_)
  exact ⟨_, hands.put_iterator 0 .finished, List.forall_mem_singleton.mpr trivial⟩

end SessionAction

namespace Session

open SessionAction

variable {session : Session} {h : Nat} {k : Cursor} {name table : Text} {use : CursorUse}
  {T : List Text → Prop} {R : Except Fault Response → Session → Prop} {phase : Phase}

/-- What comes of a use, from what its action sends. -/
theorem deed_of_sends (hsends : Sends T (use.run h) session R) : T (session.deed h use).sent ∧
    R (session.deed h use).result ((use.run h).outcome session).2 ∧
      ∀ c, session.store.Holds c name table →
        ((use.run h).outcome session).2.store.Holds c name table := by
  obtain ⟨es, hleads, hT, hR⟩ := hsends
  refine ⟨?_, hR, fun c hc => hc.of_leads hleads⟩
  show T (sentTexts _ (List.drop _ _))
  rw [hleads.trace, List.drop_left]
  exact hT

/-- A use takes the cursor from where it stands, and the collection is still there. -/
def GoesOn (session : Session) (h : Nat) (k : Cursor) (name table : Text) (phase : Phase)
    (use : CursorUse) : Prop :=
  ∃ phase', (session.deed h use).Passes h k name phase phase' ∧
    ((use.run h).outcome session).2.Stands h k phase' ∧
      ((use.run h).outcome session).2.store.Holds k.collection name table

section

variable (hholds : session.store.Holds k.collection name table)

include hholds

theorem goesOn_of_sends (hsends : Sends T (use.run h) session R)
    (hnext : ∀ (d : Deed) session', d.use = use → d.met = session → T d.sent → R d.result session' →
      ∃ phase', d.Passes h k name phase phase' ∧ session'.Stands h k phase') :
    session.GoesOn h k name table phase use := by
  obtain ⟨hT, hR, hholds'⟩ := deed_of_sends hsends
  obtain ⟨phase', hpasses, hstands'⟩ := hnext _ _ rfl rfl hT hR
  exact ⟨phase', hpasses, hstands', hholds' _ hholds⟩

/-- A cursor that was asked before stays where it stands, whatever became of it. -/
theorem goesOn_again {its : List Iterator} (hands : session.Hands h k.consumed its)
    (hstands : session.Stands h k phase) (hbegun : phase ≠ .fresh) (huse : use.Begins) :
    session.GoesOn h k name table phase use := by
  refine goesOn_of_sends hholds (sends_begins_consumed hands hholds huse) ?_
  rintro d session' rfl rfl hsent ⟨hresult, hsame⟩
  exact ⟨phase, .again hbegun huse hsent hresult, hsame ▸ hstands⟩

theorem goesOn_missing {its : List Iterator} {k' : Cursor} {i : Nat} (hands : session.Hands h k' its)
    (hi : its[i]? = none) (hstands : session.Stands h k phase)
    (huse : use = .abandon i ∨ ∃ count, use = .next i count) :
    session.GoesOn h k name table phase use := by
  refine goesOn_of_sends hholds (sends_missing hands hi huse) ?_
  rintro d session' rfl rfl hsent ⟨hsame, hresult⟩
  refine ⟨phase, .idles ?_ hsent fun _ j count hj => ?_, hsame ▸ hstands⟩
  · rcases huse with huse | ⟨count, huse⟩ <;> rw [huse] <;> exact id
  · rcases huse with huse | ⟨count', huse⟩
    · exact nomatch huse.symm.trans hj
    · cases huse.symm.trans hj
      exact hresult _ hj

/-- A cursor that is done stays so when its iterators are asked for more. -/
theorem goesOn_done {i : Nat} (hdone : session.Stands h k .done)
    (huse : use = .abandon i ∨ ∃ count, use = .next i count) :
    session.GoesOn h k name table .done use := by
  have hsends : Sends (· = []) (use.run h) session fun _ session' => session'.Stands h k .done := by
    rcases huse with rfl | ⟨count, rfl⟩
    · exact (sends_abandon_done hdone i).bind_quiet (fun _ _ h => .nothing rfl rfl h) fun _ _ h => h
    · exact (sends_take_done hdone i count).bind_quiet (fun _ _ h => .nothing rfl rfl h)
        fun _ _ h => h
  refine goesOn_of_sends hholds hsends ?_
  rintro d session' rfl rfl hsent hdone'
  refine ⟨.done, .idles ?_ hsent fun hne => absurd rfl hne, hdone'⟩
  rcases huse with huse | ⟨count, huse⟩ <;> rw [huse] <;> exact id

theorem goesOn_fresh (hfresh : k.isConsumed = false) (hands : session.Hands h k []) :
    session.GoesOn h k name table .fresh use := by
  cases use with
  | iterate =>
    refine goesOn_of_sends hholds (sends_iterate_fresh hands hfresh) ?_
    rintro d session' hd rfl hsent ⟨hresult, hdone | ⟨q, hfinds, hwaiting⟩⟩
    · exact ⟨.done, .rejected hd hsent hresult, hdone⟩
    · exact ⟨.waiting q, .begins hd hsent hresult hfinds, hwaiting⟩
  | toList =>
    refine goesOn_of_sends hholds (sends_toList_fresh hands hfresh) ?_
    rintro d session' hd rfl hsent ⟨hresult, hdone⟩
    exact ⟨.done, .reads hd hsent hresult, hdone⟩
  | next i count => exact goesOn_missing hholds hands rfl hands (.inr ⟨count, rfl⟩)
  | abandon i => exact goesOn_missing hholds hands rfl hands (.inl rfl)

theorem goesOn_waiting {q : Query}
    (hands : session.Hands h k.consumed [.documents q.documents]) :
    session.GoesOn h k name table (.waiting q) use := by
  have hstands : session.Stands h k (.waiting q) := hands
  cases use with
  | iterate => exact goesOn_again hholds hands hstands nofun trivial
  | toList => exact goesOn_again hholds hands hstands nofun trivial
  | next i count =>
    match i, count with
    | 0, 0 =>
      have hnothing : Sends (· = []) ((CursorUse.next 0 0).run h) session fun _ session' =>
          session' = session := .nothing rfl rfl rfl
      refine goesOn_of_sends hholds hnothing ?_
      rintro d session' hd rfl hsent rfl
      refine ⟨.waiting q, .idles (by rw [hd]; exact id) hsent fun _ j count hj => ?_, hands⟩
      exact nomatch hd.symm.trans hj
    | 0, count + 1 =>
      refine goesOn_of_sends hholds (sends_take_waiting hands count) ?_
      rintro d session' hd rfl hsent hdone
      exact ⟨.done, .fetches hd hsent, hdone⟩
    | i + 1, count => exact goesOn_missing hholds hands rfl hstands (.inr ⟨count, rfl⟩)
  | abandon i =>
    match i with
    | 0 =>
      refine goesOn_of_sends hholds (sends_abandon_waiting hands) ?_
      rintro d session' hd rfl hsent hdone
      exact ⟨.done, .abandons hd hsent, hdone⟩
    | i + 1 => exact goesOn_missing hholds hands rfl hstands (.inl rfl)

/-- What one use of a cursor preserves. -/
theorem goesOn (hfresh : k.isConsumed = false) (hstands : session.Stands h k phase) :
    session.GoesOn h k name table phase use := by
  cases phase with
  | fresh => exact goesOn_fresh hholds hfresh hstands
  | waiting q => exact goesOn_waiting hholds hstands
  | done =>
    obtain ⟨its, hands, -⟩ := id hstands
    cases use with
    | iterate => exact goesOn_again hholds hands hstands nofun trivial
    | toList => exact goesOn_again hholds hands hstands nofun trivial
    | next i count => exact goesOn_done hholds hstands (.inr ⟨count, rfl⟩)
    | abandon i => exact goesOn_done hholds hstands (.inl rfl)

end

/-- Whatever the store is asked for between two uses, the handles stay, and the collection is there. -/
theorem afterAll_verbs {c : Nat} (asked : List (Script × Verb))
    (hholds : session.store.Holds c name table) :
    (session.afterAll (asked.map fun a => ⟨a.1, .verb a.2⟩)).handles = session.handles ∧
      (session.afterAll (asked.map fun a => ⟨a.1, .verb a.2⟩)).store.Holds c name table := by
  induction asked generalizing session with
  | nil => exact ⟨rfl, hholds⟩
  | cons a asked ih =>
    have hfollowed : (session.store.follow a.1).Holds c name table := hholds
    have hafter : (session.after ⟨a.1, .verb a.2⟩).store.Holds c name table := by
      rw [after_verb]
      exact a.2.ensures_holds hfollowed
    have hhandles : (session.after ⟨a.1, .verb a.2⟩).handles = session.handles := by
      rw [after_verb]
    obtain ⟨hsame, hlast⟩ := ih hafter
    exact ⟨hsame.trans hhandles, hlast⟩

end Session

/-! ### What all uses come to -/

/-- Some uses take a cursor from where it stands, one after another. -/
inductive Deed.PassAll (h : Nat) (k : Cursor) (name : Text) : Phase → List Deed → Phase → Prop where
  | nil (phase : Phase) : PassAll h k name phase [] phase
  | cons {phase phase' phase'' : Phase} {d : Deed} {ds : List Deed}
    (head : d.Passes h k name phase phase') (tail : PassAll h k name phase' ds phase'') :
    PassAll h k name phase (d :: ds) phase''

/-- What a run of uses preserves. -/
theorem Session.passAll_deeds {session : Session} {h : Nat} {k : Cursor} {name table : Text}
    {phase : Phase} (hfresh : k.isConsumed = false) (hstands : session.Stands h k phase)
    (hholds : session.store.Holds k.collection name table) (turns : List CursorTurn) :
    ∃ phase', Deed.PassAll h k name phase (session.deeds h turns) phase' := by
  induction turns generalizing session phase with
  | nil => exact ⟨phase, .nil phase⟩
  | cons t turns ih =>
    obtain ⟨hhandles, hholds₁⟩ := afterAll_verbs t.since hholds
    have hmeets : (session.meeting t).Stands h k phase := hstands.of_handles hhandles
    obtain ⟨phase₁, hhead, hstands₁, hholds₂⟩ : (session.meeting t).GoesOn h k name table phase t.use :=
      goesOn hholds₁ hfresh hmeets
    obtain ⟨phase₂, htail⟩ := ih hstands₁ hholds₂
    exact ⟨phase₂, .cons hhead htail⟩

end DocStore
