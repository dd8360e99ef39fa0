import DocStore.Proofs.Session.Deed

/-!
Cursors that are read once. Only the first that asks a cursor for its documents
comes to anything, and its query is sent by whoever reads the first document, once
or never. This holds in whatever order the cursor and the iterators that it hands
out are used, and whichever of the uses fail.
-/

namespace DocStore

namespace Deed.PassAll

variable {h : Nat} {k : Cursor} {name : Text} {phase phase' : Phase} {d : Deed}
  {before after ds : List Deed} {q : Query}

theorem split (hall : PassAll h k name phase (before ++ d :: after) phase') :
    ∃ phase₁ phase₂, PassAll h k name phase before phase₁ ∧ d.Passes h k name phase₁ phase₂ ∧
      PassAll h k name phase₂ after phase' := by
  induction before generalizing phase with
  | nil =>
    cases hall with
    | cons head tail => exact ⟨phase, _, .nil phase, head, tail⟩
  | cons e before ih =>
    cases hall with
    | cons head tail =>
      obtain ⟨phase₁, phase₂, hbefore, hd, hafter⟩ := ih tail
      exact ⟨phase₁, phase₂, .cons head hbefore, hd, hafter⟩

/-- A cursor that is done stays so, and sends nothing. -/
theorem of_done (hall : PassAll h k name .done ds phase) :
    phase = .done ∧ ∀ d ∈ ds, d.sent = [] := by
  induction ds with
  | nil =>
    cases hall
    exact ⟨rfl, List.forall_mem_nil _⟩
  | cons d ds ih =>
    cases hall with
    | cons head tail =>
      cases head with
      | again _ _ sent _ => exact ⟨(ih tail).1, List.forall_mem_cons.mpr ⟨sent, (ih tail).2⟩⟩
      | idles _ sent _ => exact ⟨(ih tail).1, List.forall_mem_cons.mpr ⟨sent, (ih tail).2⟩⟩

/-- As long as a cursor is not done nothing was sent, and no iterator was there to be asked for
documents. -/
theorem quiet (hall : PassAll h k name phase ds phase') (hphase' : phase' ≠ .done) :
    ∀ d ∈ ds, d.sent = [] ∧ ∀ i count, d.use = .next i (count + 1) →
      d.result = .error (.misuse .noMember) := by
  induction hall with
  | nil => exact List.forall_mem_nil _
  | @cons phase phase₁ phase₂ d ds head tail ih =>
    refine List.forall_mem_cons.mpr ⟨?_, ih hphase'⟩
    have hphase₁ : phase₁ ≠ .done := by
      rintro rfl
      exact hphase' tail.of_done.1
    cases head with
    | begins use sent => exact ⟨sent, fun i count hd => nomatch use.symm.trans hd⟩
    | again _ use sent _ =>
      refine ⟨sent, fun i count hd => ?_⟩
      rw [hd] at use
      exact use.elim
    | idles _ sent missed => exact ⟨sent, missed hphase₁⟩
    | rejected => exact absurd rfl hphase₁
    | reads => exact absurd rfl hphase₁
    | fetches => exact absurd rfl hphase₁
    | abandons => exact absurd rfl hphase₁

/-- A cursor is fresh for as long as it is not asked for its documents. -/
theorem fresh_iff (hall : PassAll h k name phase ds phase') :
    phase' = .fresh ↔ phase = .fresh ∧ ∀ d ∈ ds, ¬ d.use.Begins := by
  induction hall with
  | nil => exact ⟨fun h => ⟨h, List.forall_mem_nil _⟩, And.left⟩
  | @cons phase phase₁ phase₂ d ds head tail ih =>
    rw [ih, List.forall_mem_cons]
    cases head with
    | begins use => simp [use, CursorUse.Begins]
    | rejected use => simp [use, CursorUse.Begins]
    | reads use => simp [use, CursorUse.Begins]
    | again begun => simp [begun]
    | fetches => simp
    | abandons => simp
    | idles use => simp [use]

/-- The query of an iterator is that of the search of its cursor. -/
theorem exists_finds (hall : PassAll h k name phase ds (.waiting q)) (hphase : phase = .fresh) :
    ∃ d ∈ ds, d.use.Begins ∧ q.Finds d.met.store k.collection k.filter k.options := by
  -- Only one use of a fresh cursor makes it wait, and it waits for that query.
  have hsame {phase : Phase} {q' : Query} {ds : List Deed}
      (hall : PassAll h k name (.waiting q') ds phase) (hphase : phase = .waiting q) : q' = q := by
    induction ds with
    | nil =>
      cases hall
      cases hphase
      rfl
    | cons d ds ih =>
      subst hphase
      cases hall with
      | cons head tail =>
        cases head with
        | again => exact ih tail
        | idles => exact ih tail
        | fetches => exact nomatch tail.of_done.1
        | abandons => exact nomatch tail.of_done.1
  induction ds with
  | nil =>
    cases hall
    cases hphase
  | cons d ds ih =>
    subst hphase
    cases hall with
    | cons head tail =>
      cases head with
      | begins use _ _ finds =>
        obtain rfl := hsame tail rfl
        exact ⟨d, List.mem_cons_self, by rw [use]; trivial, finds⟩
      | rejected => exact nomatch tail.of_done.1
      | reads => exact nomatch tail.of_done.1
      | again begun => exact absurd rfl begun
      | idles =>
        obtain ⟨e, he, hfinds⟩ := ih tail
        exact ⟨e, List.mem_cons_of_mem _ he, hfinds⟩

end Deed.PassAll

/-- Documents are read in a use, at once or through an iterator, and no use before it found an iterator
to read them from. -/
def Deed.FetchesFirst (before : List Deed) (d : Deed) : Prop :=
  (d.use = .toList ∨ ∃ i count, d.use = .next i (count + 1)) ∧
    ∀ e ∈ before, ∀ i count, e.use = .next i (count + 1) → e.result = .error (.misuse .noMember)

/-- What comes of the uses of a cursor when its documents are read once. -/
structure ReadsOnce (h : Nat) (k : Cursor) (name : Text) (deeds : List Deed) : Prop where
  /-- Nothing is sent for an iterator. -/
  asked : ∀ d ∈ deeds, d.use = .iterate → d.sent = []
  /-- The first that asks the cursor gets an iterator if its search can be compiled, or what is found. -/
  first : ∀ before d after, deeds = before ++ d :: after → d.use.Begins →
    (∀ e ∈ before, ¬ e.use.Begins) → d.result = k.firstReply h d.met.store d.use
  /-- Whoever asks it afterwards fails by its state, and nothing is sent. -/
  again : ∀ before d after, deeds = before ++ d :: after → d.use.Begins →
    (∃ e ∈ before, e.use.Begins) → d.result = .error (.consumed name) ∧ d.sent = []
  /-- Only where documents are read first is anything sent: the query of the search, when it was compiled,
  after what makes the table of its collection. -/
  fetched : ∀ before d after, deeds = before ++ d :: after → d.sent ≠ [] →
    d.FetchesFirst before ∧ (∀ e ∈ before ++ after, e.sent = []) ∧
      ∃ q : Query, q.SendsOnce d.met.store.engine d.sent ∧ ∃ e ∈ before ++ [d], e.use.Begins ∧
        q.Finds e.met.store k.collection k.filter k.options
  /-- At most one query is sent. -/
  once : ((deeds.flatMap Deed.sent).filter Action.isQuery).length ≤ 1

namespace Deed.PassAll

variable {h : Nat} {k : Cursor} {name : Text} {phase : Phase} {before after deeds : List Deed} {d : Deed}

/-- The only use that sends anything is the one that reads documents first. -/
theorem fetched (hall : PassAll h k name .fresh (before ++ d :: after) phase) (hsent : d.sent ≠ []) :
    d.FetchesFirst before ∧ (∀ e ∈ before ++ after, e.sent = []) ∧
      ∃ q : Query, q.SendsOnce d.met.store.engine d.sent ∧ ∃ e ∈ before ++ [d], e.use.Begins ∧
        q.Finds e.met.store k.collection k.filter k.options := by
  obtain ⟨phase₁, phase₂, hbefore, hd, hafter⟩ := hall.split
  cases hd with
  | reads use sent =>
    have hquiet := hbefore.quiet nofun
    refine ⟨⟨.inl use, fun e he => (hquiet e he).2⟩, ?_, ?_⟩
    · exact List.forall_mem_append.mpr ⟨fun e he => (hquiet e he).1, hafter.of_done.2⟩
    · obtain ⟨q, hfinds, hq⟩ := sent.resolve_left hsent
      exact ⟨q, hq, d, List.mem_append_right _ (List.mem_singleton_self d), by rw [use]; trivial,
        hfinds⟩
  | @fetches q count use sent =>
    have hquiet := hbefore.quiet nofun
    refine ⟨⟨.inr ⟨0, count, use⟩, fun e he => (hquiet e he).2⟩, ?_, q, sent, ?_⟩
    · exact List.forall_mem_append.mpr ⟨fun e he => (hquiet e he).1, hafter.of_done.2⟩
    · obtain ⟨e, he, hbegins, hfinds⟩ := hbefore.exists_finds rfl
      exact ⟨e, List.mem_append_left _ he, hbegins, hfinds⟩
  | begins _ sent => exact absurd sent hsent
  | rejected _ sent => exact absurd sent hsent
  | again _ _ sent => exact absurd sent hsent
  | abandons _ sent => exact absurd sent hsent
  | idles _ sent => exact absurd sent hsent

theorem length_filter_le (hall : PassAll h k name .fresh deeds phase) :
    ((deeds.flatMap Deed.sent).filter Action.isQuery).length ≤ 1 := by
  by_cases hnone : ∀ d ∈ deeds, d.sent = []
  · rw [List.flatMap_eq_nil_iff.mpr hnone]
    exact Nat.zero_le 1
  · obtain ⟨d, hd, hsent⟩ : ∃ d ∈ deeds, d.sent ≠ [] := by simpa using hnone
    obtain ⟨before, after, rfl⟩ := List.append_of_mem hd
    obtain ⟨-, hothers, q, hq, -⟩ := hall.fetched hsent
    obtain ⟨hbefore, hafter⟩ := List.forall_mem_append.mp hothers
    rw [List.flatMap_append, List.flatMap_cons, List.flatMap_eq_nil_iff.mpr hbefore,
      List.flatMap_eq_nil_iff.mpr hafter, List.nil_append, List.append_nil]
    exact hq.length_filter_le

theorem readsOnce (hall : PassAll h k name .fresh deeds phase) : ReadsOnce h k name deeds where
  asked d hd huse := by
    obtain ⟨before, after, rfl⟩ := List.append_of_mem hd
    by_contra hsent
    obtain ⟨⟨huse' | ⟨i, count, huse'⟩, -⟩, -⟩ := hall.fetched hsent
    · exact nomatch huse.symm.trans huse'
    · exact nomatch huse.symm.trans huse'
  first before d after hdeeds hbegins hnone := by
    subst hdeeds
    obtain ⟨phase₁, phase₂, hbefore, hd, -⟩ := hall.split
    obtain rfl : phase₁ = .fresh := hbefore.fresh_iff.mpr ⟨rfl, hnone⟩
    cases hd with
    | begins use _ result => rw [use, result]
    | rejected use _ result => rw [use, result]
    | reads use _ result => rw [use, result]
    | again begun => exact absurd rfl begun
    | idles use => exact absurd hbegins use
  again before d after hdeeds hbegins hearlier := by
    subst hdeeds
    obtain ⟨phase₁, phase₂, hbefore, hd, -⟩ := hall.split
    have hbegun : phase₁ ≠ .fresh := fun hfresh => by
      obtain ⟨e, he, hasked⟩ := hearlier
      exact (hbefore.fresh_iff.mp hfresh).2 e he hasked
    cases hd with
    | again _ _ sent result => exact ⟨result, sent⟩
    | begins => exact absurd rfl hbegun
    | rejected => exact absurd rfl hbegun
    | reads => exact absurd rfl hbegun
    | fetches use =>
      rw [use] at hbegins
      exact hbegins.elim
    | abandons use =>
      rw [use] at hbegins
      exact hbegins.elim
    | idles use => exact absurd hbegins use
  fetched before d after hdeeds hsent := by
    subst hdeeds
    exact hall.fetched hsent
  once := hall.length_filter_le

end Deed.PassAll

namespace Session

variable {session : Session} {c : Nat} {x : Collection} {f : Filter} {v : Value}

/-- A cursor over a collection is handed out without anything being done to the store, and its documents
are read once: however it and the iterators that it hands out are used afterwards, whatever the store is
asked for in between and whatever the database does, only the first that asks for its documents can
succeed, and its query is sent at most once, when the first document is read. -/
theorem cursor_readsOnce (hx : session.store.collections[c]? = some x) :
    ((Request.cursor c f v).run.outcome session).2.store = session.store ∧
      ∀ h limit session', (Request.cursor c f v).run.outcome session = (.ok (.cursor h limit), session') →
        ∃ options, FindOptions.ofValue v = .ok (.ok options) ∧
          ∀ turns, ReadsOnce h ⟨c, f, options, false⟩ x.name (session'.deeds h turns) := by
  have hrejected {fault : Fault} (h : (Action.findOptions v).outcome session.store =
      (.error fault, session.store)) :
      (Request.cursor c f v).run.outcome session = (.error fault, session) :=
    SessionAction.outcome_bind_error (SessionAction.outcome_ofAction h)
  rcases hoptions : FindOptions.ofValue v with fault | issues | options
  · have hrun := hrejected (by unfold Action.findOptions; rw [hoptions]; rfl)
    rw [hrun]
    exact ⟨rfl, fun _ _ _ hcursor => nomatch congrArg Prod.fst hcursor⟩
  · have hrun := hrejected (by unfold Action.findOptions; rw [hoptions]; rfl)
    rw [hrun]
    exact ⟨rfl, fun _ _ _ hcursor => nomatch congrArg Prod.fst hcursor⟩
  · rw [outcome_cursor hoptions]
    refine ⟨rfl, ?_⟩
    rintro h limit session' hcursor
    cases hcursor
    refine ⟨options, rfl, fun turns => ?_⟩
    have hholds : session.store.Holds c x.name x.table := ⟨x, hx, rfl, rfl⟩
    have hstands : Stands { session with
        handles := session.handles ++ [.cursor ⟨c, f, options, false⟩] } session.handles.length
        ⟨c, f, options, false⟩ .fresh := ⟨session.handles, rfl, rfl⟩
    obtain ⟨phase, hall⟩ := passAll_deeds rfl hstands hholds turns
    exact hall.readsOnce

/-- An iterator is asked for, then all documents at once, which fails; then the table is dropped, and the
database refuses the query when the iterator is asked for documents. -/
def interrupted : List CursorTurn :=
  [{ use := .iterate }, { use := .toList },
    { since := [({}, .on 0 .drop)],
      script := { failure := some (2, ⟨"OperationalError", "locked", .int 5, true⟩) },
      use := .next 0 2 },
    { use := .next 0 1 }, { use := .iterate }]

set_option maxRecDepth 4000 in
/-- The query that is refused, after two statements that make the table, is not sent again. -/
theorem cursor_readsOnce_interrupted :
    let session : Session := ⟨Store.ready .sqlite, []⟩
    let used := ((Request.cursor 0 .everything .null).run.outcome session).2
    session.store.collections[0]? = some ⟨"c", "c", true⟩ ∧
      ReadsOnce 0 ⟨0, .everything, {}, false⟩ "c" (used.deeds 0 interrupted) ∧
      (used.deeds 0 interrupted).map (fun d => d.sent.length) = [0, 0, 3, 0, 0] ∧
      ((used.deeds 0 interrupted).flatMap Deed.sent).filter Action.isQuery =
        [("SELECT \"document\" FROM \"c\"" : Text)] := by
  intro session used
  have hx : session.store.collections[0]? = some ⟨"c", "c", true⟩ := rfl
  obtain ⟨-, hreads⟩ := cursor_readsOnce (f := .everything) (v := .null) hx
  obtain ⟨options, hoptions, honce⟩ := hreads 0 none used rfl
  cases hoptions
  exact ⟨hx, honce interrupted, by decide +kernel, by decide +kernel⟩

end Session

end DocStore
