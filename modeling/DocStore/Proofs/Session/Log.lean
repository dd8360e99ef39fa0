import DocStore.Proofs.Session.Failures

/-!
The statements that the journal lists. In every turn each statement is listed
once when it is sent. A turn that fails with a refused statement lists that
statement once more, and where quoting was refused the mark of quoting, which was
never sent; so the list is the trace of what was sent only as long as no turn
fails so.
-/

namespace DocStore

variable {calls calls' : List LogCall} {texts : List Text}

/-- What a journal would list for some messages. -/
def LogCall.listed (calls : List LogCall) : List Value :=
  (calls.map fun call => call.record.sql).filter (·.isTruthy)

namespace LogCall

theorem listed_append : listed (calls ++ calls') = listed calls ++ listed calls' := by
  rw [listed, List.map_append, List.filter_append]
  rfl

/-- A journal without bounds lists what its loggers accept. -/
theorem statements_foldl_into {j : Journal} (hcapacity : j.capacity = none)
    (haccepts : ∀ call ∈ calls, call.logger.accepts call.level = true) :
    (calls.foldl into j).capacity = none ∧
      (calls.foldl into j).statements = j.statements ++ listed calls := by
  induction calls generalizing j with
  | nil => exact ⟨hcapacity, (List.append_nil _).symm⟩
  | cons call calls ih =>
    obtain ⟨haccept, haccepts⟩ := List.forall_mem_cons.mp haccepts
    have hinto : (into j call).capacity = none ∧ (into j call).records = _ := records_into hcapacity
    obtain ⟨hcapacity', hrecords⟩ := hinto
    obtain ⟨hlast, hstatements⟩ := ih hcapacity' haccepts
    refine ⟨hlast, hstatements.trans ?_⟩
    have hfirst : (into j call).statements = j.statements ++ listed [call] := by
      rw [Journal.statements, hrecords, if_pos haccept, List.map_append, List.filter_append]
      rfl
    rw [hfirst, List.append_assoc, ← listed_append]
    rfl

/-- What messages announce is what is listed for them, when the others carry nothing. -/
theorem listed_of_wordless (hwordless : Wordless calls) (hannounced : calls.filterMap announced? =
      texts.map fun text => Members.one LogRecord.sqlKey (.str text)) :
    listed calls = (texts.map Value.str).filter (·.isTruthy) := by
  induction calls generalizing texts with
  | nil =>
    obtain rfl : texts = [] := List.map_eq_nil_iff.mp hannounced.symm
    rfl
  | cons call calls ih =>
    obtain ⟨hbare, hwordless⟩ := List.forall_mem_cons.mp hwordless
    show listed ([call] ++ calls) = _
    rw [listed_append]
    by_cases hlevel : call.level = .debug
    · have hcall : announced? call = some call.metadata := if_pos hlevel
      rw [List.filterMap_cons, hcall] at hannounced
      cases texts with
      | nil => cases hannounced
      | cons text texts =>
        obtain ⟨hmetadata, hannounced⟩ := List.cons.inj hannounced
        have hsql : call.record.sql = .str text := by
          rw [LogRecord.sql, record, hmetadata]
          rfl
        rw [ih hwordless hannounced, listed, List.map_singleton, hsql, ← List.filter_append]
        rfl
    · have hcall : announced? call = none := if_neg hlevel
      rw [List.filterMap_cons, hcall] at hannounced
      have hsql : call.record.sql = .null := by
        rw [LogRecord.sql, record, hbare hlevel]
        rfl
      rw [ih hwordless hannounced, listed, List.map_singleton, hsql]
      rfl

end LogCall

namespace Session

/-- The statement that a turn fails with, if it does. -/
def blamed : Except Fault Response → List Text
  | .error (.statement f) => [f.sql]
  | _ => []

/-- What is listed for a turn: the texts that it sent, and again the statement that it fails with. A
text without any character is not listed. -/
def listed (session : Session) (t : Turn) : List Text :=
  (sentTexts session.store.engine (session.did t) ++ blamed (session.reply t)).filter
    fun text => !text.isEmpty

/-- What is listed for some turns, one after another. -/
def listedAll : Session → List Turn → List Text
  | _, [] => []
  | session, t :: turns => session.listed t ++ (session.after t).listedAll turns

variable {session : Session} {w : Library}

theorem map_str_filter (texts : List Text) :
    (texts.filter fun text => !text.isEmpty).map Value.str =
      (texts.map Value.str).filter (·.isTruthy) := by
  rw [List.filter_map]
  rfl

/-- The messages of a turn list what it sent and what it fails with. -/
theorem exists_listed (h : Tracks session w) (t : Turn) : ∃ calls,
    (session.after t).store.journal = calls.foldl LogCall.into session.store.journal ∧
      (∀ call ∈ calls, session.store.Tells call) ∧
      LogCall.listed calls = (session.listed t).map Value.str := by
  obtain ⟨calls, hrun⟩ := exists_surfacing h t
  have htells : ∀ call ∈ calls, session.store.Tells call := fun call hmem =>
    ⟨(hrun.acts.tells call hmem).least, (hrun.acts.tells call hmem).bare⟩
  refine ⟨calls, hrun.acts.journal, htells, ?_⟩
  have hannounced : calls.filterMap LogCall.announced? =
      (sentTexts session.store.engine (session.did t)).map
        fun text => Members.one LogRecord.sqlKey (.str text) := hrun.acts.announced
  rw [listed, map_str_filter, List.map_append, List.filter_append]
  -- A fault that is complained of at last is listed, and before it only what was announced.
  have hcomplained {earlier : List LogCall} {fault : Fault} (hreply : session.reply t = .error fault)
      (hlogged : calls = earlier ++ session.store.complaints fault) (hcalm : Calm earlier) :
      LogCall.listed calls =
        ((sentTexts session.store.engine (session.did t)).map Value.str).filter (·.isTruthy) ++
          ((blamed (session.reply t)).map Value.str).filter (·.isTruthy) := by
    subst hlogged
    have htells : ∀ call ∈ earlier, session.store.Tells call := fun call hmem =>
      htells call (List.mem_append_left _ hmem)
    have hsilent : (session.store.complaints fault).filterMap LogCall.announced? = [] := by
      cases fault <;> rfl
    rw [List.filterMap_append, hsilent, List.append_nil] at hannounced
    rw [LogCall.listed_append,
      LogCall.listed_of_wordless (Store.wordless_of_calm htells hcalm) hannounced, hreply]
    cases fault <;> rfl
  cases hrun.ending with
  | quiet hraised hblameless hcalm hsame =>
    have hwordless : Wordless calls :=
      hcalm.elim (Store.wordless_of_calm htells) And.left
    have hnone : blamed (session.reply t) = [] := by
      unfold blamed
      split
      next f hreply => exact absurd hreply (hblameless f)
      next => rfl
    rw [LogCall.listed_of_wordless hwordless hannounced, hnone]
    exact (List.append_nil _).symm
  | raised hparts hnothing hraises hclosings hresult hlogged hcalm =>
    exact hcomplained hresult hlogged hcalm
  | unquoted hquoting hraised hresult hlogged hcalm hdone => exact hcomplained hresult hlogged hcalm

/-- What one turn preserves: a journal that keeps every record lists what the turn sent and fails
with. -/
theorem statements_after (h : Tracks session w) (hcapacity : session.store.journal.capacity = none)
    (haccepts : session.store.logger.accepts .debug = true) (t : Turn) :
    (session.after t).store.journal.capacity = none ∧
      (session.after t).store.journal.statements =
        session.store.journal.statements ++ (session.listed t).map Value.str := by
  obtain ⟨calls, hjournal, htells, hlisted⟩ := exists_listed h t
  rw [hjournal, ← hlisted]
  refine LogCall.statements_foldl_into hcapacity fun call hmem => ?_
  -- A logger that records the least severe messages records all.
  have hleast : call.logger.least.weight ≤ Level.debug.weight := by
    rw [(htells call hmem).least]
    exact of_decide_eq_true haccepts
  have hlevel : Level.debug.weight ≤ call.level.weight := by
    cases call.level <;> decide
  exact decide_eq_true (hleast.trans hlevel)

theorem accepts_after (h : Tracks session w) (t : Turn) (level : Level) :
    (session.after t).store.logger.accepts level = session.store.logger.accepts level := by
  obtain ⟨calls, hrun⟩ := exists_surfacing h t
  exact congrArg (Logger.accepts · level) hrun.acts.logger

/-- What a run of turns preserves. -/
theorem statements_of_tracks (h : Tracks session w) (hcapacity : session.store.journal.capacity = none)
    (haccepts : session.store.logger.accepts .debug = true) (turns : List Turn) :
    (session.afterAll turns).store.journal.statements =
      session.store.journal.statements ++ (session.listedAll turns).map Value.str := by
  induction turns generalizing session w with
  | nil => exact (List.append_nil _).symm
  | cons t turns ih =>
    obtain ⟨hcapacity', hfirst⟩ := statements_after h hcapacity haccepts t
    have haccepts' := (accepts_after h t .debug).trans haccepts
    have hrest := ih (tracks_after h t) hcapacity' haccepts'
    rw [hfirst, List.append_assoc, ← List.map_append] at hrest
    exact hrest

/-- A journal that keeps every record lists, over any turns of a session, what each of them sent and,
where it failed with a refused statement, that statement after them. -/
theorem statements_afterAll (hnew : session.handles = [])
    (hcapacity : session.store.journal.capacity = none)
    (haccepts : session.store.logger.accepts .debug = true) (turns : List Turn) :
    (session.afterAll turns).store.journal.statements =
      session.store.journal.statements ++ (session.listedAll turns).map Value.str :=
  statements_of_tracks (tracks_library hnew) hcapacity haccepts turns

/-- The turns of a session whose database refuses to count, and then to quote. -/
def refusedTurns : List Turn :=
  [⟨{ failure := some (0, lost) }, .verb (.on 0 (.count .everything))⟩,
    ⟨{ quoting := some lost }, .verb (.quote "x")⟩]

/-- The statement that is refused is listed twice, and the mark of quoting once. -/
theorem statements_afterAll_refused :
    reading.handles = [] ∧ reading.store.journal.capacity = none ∧
      reading.store.logger.accepts .debug = true ∧
      (reading.afterAll refusedTurns).store.journal.statements =
        [.str "SELECT COUNT(*) FROM \"c\"", .str "SELECT COUNT(*) FROM \"c\"",
          .str "-- literal quoting"] :=
  ⟨rfl, rfl, rfl, @statements_afterAll reading rfl rfl rfl refusedTurns⟩

/-- What the journal lists is not the trace of what was sent. -/
theorem not_statements_eq_sentTexts :
    ¬∀ (session : Session) (turns : List Turn), session.handles = [] → session.store.trace = [] →
      session.store.journal = {} → session.store.logger.accepts .debug = true →
        (session.afterAll turns).store.journal.statements =
          (sentTexts session.store.engine (session.afterAll turns).store.trace).map Value.str := by
  intro h
  have hrefused := congrArg List.length (h reading refusedTurns rfl rfl rfl rfl)
  cases hrefused

end Session

end DocStore
