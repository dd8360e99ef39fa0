import DocStore.Proofs.Store.Compose
import DocStore.Proofs.Store.Surface

/-!
What a connection does, with the failures that it meets. A statement is sent or
refused, rows end or end with an error, and a text is quoted or refused.
-/

namespace DocStore

variable {α β : Type}

/-! ### Actions on stores -/

namespace Store

variable {s : Store} {st : Statement}

/-- What is logged before a statement is sent. -/
def announcement (s : Store) (st : Statement) : LogCall :=
  ⟨s.ownLogger, .debug, "SQL 실행", Members.one LogRecord.sqlKey (.str (st.text s.engine))⟩

theorem calm_announcement (s : Store) (st : Statement) : Calm [s.announcement st] :=
  calm_singleton (show Level.debug ≠ .error by decide)

/-- A store that has announced and sent a statement. -/
def sending (s : Store) (st : Statement) : Store :=
  { s with
    journal := (s.announcement st).into s.journal
    trace := s.trace ++ [.send s.opened st]
    sent := s.sent + 1
    opened := s.opened + 1 }

theorem quotingRefusal_fluent (s : Store) : s.fluent.quotingRefusal = none := by
  unfold quotingRefusal
  split <;> rfl

theorem acts_sending (s : Store) (st : Statement) :
    s.Acts [.send s.opened st] [s.announcement st] (s.sending st) :=
  ⟨rfl, rfl, rfl, List.forall_mem_singleton.mpr ⟨rfl, fun h => absurd rfl h⟩, rfl, rfl, rfl⟩

/-- Only a query takes a reply off the script, and nothing else changes in it. -/
theorem answer_script (s : Store) (st : Statement) : (s.answer st).2 = { s.script with
    replies := if Action.isQuery (st.text s.engine) then s.script.replies.tail
      else s.script.replies } := by
  unfold answer nextReply
  split
  · obtain ⟨replies, affected, failure, quoting, unquotable⟩ := s.script
    cases replies <;> rfl
  · rfl

theorem answer_fluent (s : Store) (st : Statement) :
    s.fluent.answer st = ((s.answer st).1, { (s.answer st).2 with quoting := none }) := by
  have hreply : (nextReply s.fluent.script).1 = (nextReply s.script).1 := by
    show (nextReply { s.script with quoting := none }).1 = _
    obtain ⟨replies, affected, failure, quoting, unquotable⟩ := s.script
    cases replies <;> rfl
  refine Prod.ext ?_ ?_
  · show (if Action.isQuery (st.text s.engine) then nextReply s.fluent.script
      else ({}, s.fluent.script)).1 = _
    unfold answer
    split
    · exact hreply
    · rfl
  · rw [answer_script, answer_script]
    rfl

/-- A store that has logged a fault. -/
def complain (s : Store) (fault : Fault) : Store :=
  { s with journal := (s.complaints fault).foldl LogCall.into s.journal }

theorem acts_complain (s : Store) (fault : Fault) :
    s.Acts [] (s.complaints fault) (s.complain fault) := by
  refine ⟨(List.append_nil _).symm, rfl, ?_, ?_, rfl, rfl, rfl⟩
  · cases fault <;> rfl
  · cases fault with
    | statement f => exact List.forall_mem_singleton.mpr ⟨rfl, fun _ h => absurd rfl h⟩
    | _ => exact List.forall_mem_nil _

theorem complaints_of_blameless (s : Store) {fault : Fault} (h : fault.isStatement = false) :
    s.complaints fault = [] := by
  cases fault with
  | statement f => cases h
  | _ => rfl

/-- The connection quotes as if it quoted every text, or it refuses some of them. -/
theorem quote_eq_fluent_or (s : Store) :
    s.quote = s.fluent.quote ∨ ∃ r, s.quotingRefusal = some r ∧
      Quoting.Refuses s.quote s.fluent.quote (s.refused s.engine.quotingMark r) := by
  cases hopen : s.isOpen with
  | false =>
    left
    funext t
    have hclosed : s.fluent.isOpen = false := hopen
    rw [quote, quote, hopen, hclosed]
    rfl
  | true =>
    have hopened : s.fluent.isOpen = true := hopen
    cases hquoting : s.quotingRefusal with
    | none =>
      left
      funext t
      rw [quote, quote, hopen, hopened, hquoting, quotingRefusal_fluent]
      rfl
    | some r =>
      refine .inr ⟨r, rfl, fun t => ?_⟩
      rw [quote, quote, hopen, hopened, hquoting, quotingRefusal_fluent]
      cases s.script.unquotable t with
      | true => exact .inr rfl
      | false => exact .inl rfl

/-- A connection that quotes every text never blames a statement. -/
theorem clean_quote_fluent (s : Store) : Quoting.Clean s.fluent.quote := by
  intro t fault h
  rw [quote, quotingRefusal_fluent, Option.filter_none] at h
  split at h
  · cases h
    rfl
  · dsimp only at h
    split at h
    · cases h
    · cases h
      rfl

end Store

namespace Action

variable {s : Store} {st : Statement} {w : Library} {Q : α → Library → Prop}

theorem outcome_fail (fault : Fault) : (fail fault : Action α).outcome s =
    (.error fault, s.complain fault) := by
  cases fault <;> rfl

theorem outcome_send_refused {r : Refusal} (hopen : s.isOpen = true)
    (hfailure : s.script.failure = some (s.sent, r)) :
    (send st).outcome s =
      (fail (s.refused (st.text s.engine) r) : Action (Nat × Reply)).outcome (s.sending st) := by
  unfold send
  rw [outcome_get_bind, hopen, hfailure]
  simp only [Bool.not_true, Bool.false_eq_true, if_false, if_true]
  rw [outcome_fail]
  exact outcome_bind_error (s := s.sending st) (outcome_fail _)

theorem outcome_send_answered (hopen : s.isOpen = true)
    (hfailure : ∀ r, s.script.failure ≠ some (s.sent, r)) :
    (send st).outcome s =
      (.ok (s.opened, (s.answer st).1), { s.sending st with script := (s.answer st).2 }) := by
  have hanswered : (if isQuery (st.text s.engine) then do
        modify fun s₁ => { s₁ with script := (Store.nextReply s.script).2 }
        return (s.opened, (Store.nextReply s.script).1)
      else return (s.opened, {}) : Action (Nat × Reply)).outcome (s.sending st) =
      (.ok (s.opened, (s.answer st).1), { s.sending st with script := (s.answer st).2 }) := by
    unfold Store.answer
    split <;> rfl
  unfold send
  rw [outcome_get_bind, hopen]
  simp only [Bool.not_true, Bool.false_eq_true, if_false]
  cases hscript : s.script.failure with
  | none => exact hanswered
  | some p =>
    obtain ⟨number, r⟩ := p
    have hnumber : number ≠ s.sent := by
      rintro rfl
      exact hfailure r hscript
    simp only [if_neg hnumber]
    exact hanswered

/-- What is done with the library without a statement, when it raises nothing. -/
theorem surfaces_record {e : Event} {Q : Unit → Library → Prop} (hsend : e.statement? = none)
    (hraises : w.raises e = none) (hQ : Q () w) : Surfaces (record e) w Q := by
  intro s hs
  have hafter : w.afterAll [e] = w := Library.after_of_statement?_eq_none hsend
  have hraised : w.raised [e] = [] := by
    rw [Library.raised_singleton, hraises]
    rfl
  exact ⟨[e], [], .of_after hafter (.recorded s hsend) (hs.of_eq rfl rfl rfl rfl) (.refl w)
    (.quiet hraised nofun (.inl calm_nil) rfl) fun _ _ => hQ⟩

theorem candid_record {e : Event} (hsend : e.statement? = none)
    (hraises : ∀ w : Library, w.raises e = none) : Candid (record e) := ⟨fun w => surfaces_record hsend (hraises w) trivial⟩

/-- What is logged, other than an error and an announcement. -/
theorem candid_logged (call : Store → LogCall) (hfluent : ∀ s, call (Store.fluent s) = call s)
    (hlevel : ∀ s, (call s).level ≠ .error ∧ (call s).level ≠ .debug)
    (htells : ∀ s, Store.Tells s (call s)) :
    Candid (modify fun s => { s with journal := (call s).into s.journal } : Action Unit) := by
  constructor
  intro w s hs
  obtain ⟨herror, hdebug⟩ := hlevel s
  refine ⟨[], [call s], ⟨(List.append_nil _).symm, rfl, ?_,
    List.forall_mem_singleton.mpr (htells s), rfl, rfl, rfl⟩, ?_, .refl w,
    .quiet rfl nofun (.inl (calm_singleton herror)) ?_, fun _ _ => trivial⟩
  · simp [LogCall.announced?, hdebug, sentTexts]
  · exact hs.of_eq rfl rfl rfl rfl
  · show (Except.ok (), { s.fluent with journal := (call s.fluent).into s.journal }) = _
    rw [hfluent]
    rfl

theorem candid_log {level : Level} (message : Text) (herror : level ≠ .error)
    (hdebug : level ≠ .debug) : Candid (log level message []) :=
  candid_logged (fun s => ⟨s.ownLogger, level, message, []⟩) (fun _ => rfl)
    (fun _ => ⟨herror, hdebug⟩) fun _ => ⟨rfl, fun _ _ => rfl⟩

theorem candid_logOf {level : Level} (name message : Text) (herror : level ≠ .error)
    (hdebug : level ≠ .debug) : Candid (logOf name level message) :=
  candid_logged (fun s => ⟨s.collectionLogger name, level, message, []⟩) (fun _ => rfl)
    (fun _ => ⟨herror, hdebug⟩) fun _ => ⟨rfl, fun _ _ => rfl⟩

/-- What only changes what the library does not know of. -/
theorem candid_aside {a : Action α} {g : Store → α × Store}
    (ha : ∀ s, a.outcome s = (.ok (g s).1, (g s).2))
    (hfluent : ∀ s, g (Store.fluent s) = ((g s).1, (g s).2.fluent))
    (haside : ∀ s : Store, s.Aside (g s).2) : Candid a := by
  constructor
  intro w s hs
  refine ⟨[], [], ?_⟩
  show Surfacing w s _ _ _ (a.outcome s) (a.outcome s.fluent)
  rw [ha, ha, hfluent]
  exact .still (.of_aside (haside s)) ⟨(haside s).backs hs.backs, trivial⟩ nofun rfl
    fun _ _ => trivial

theorem outcome_inDialect_of_blameless {f : Dialect → Except Fault α}
    (h : ∀ fault, f s.dialect = .error fault → fault.isStatement = false) :
    (inDialect f).outcome s = (f s.dialect, s) := by
  unfold inDialect
  rw [outcome_get_bind]
  cases hf : f s.dialect with
  | ok a => rfl
  | error fault =>
    have hcalm : s.complain fault = s := by
      rw [Store.complain, s.complaints_of_blameless (h fault hf)]
      rfl
    show (fail fault : Action α).outcome s = _
    rw [outcome_fail, hcalm]

/-- What is put together in the dialect meets the connection only where it is quoted. -/
theorem candid_inDialect {f : Dialect → Except Fault α}
    (hf : ∀ e : Engine, Consults fun q => f ⟨e, q⟩) : Candid (inDialect f) := by
  constructor
  intro w s hs
  -- Either a text of it is refused, and so is the whole, or it comes out as where all are quoted.
  have hasked : (∃ r, s.quotingRefusal = some r ∧
      f s.dialect = .error (s.refused s.engine.quotingMark r)) ∨ f s.dialect = f s.fluent.dialect := by
    rcases s.quote_eq_fluent_or with hquote | ⟨r, hr, hquote⟩
    · right
      show f ⟨s.engine, s.quote⟩ = _
      rw [hquote]
      rfl
    · exact ((hf s.engine).refused hquote).imp_left fun h => ⟨r, hr, h⟩
  rcases hasked with ⟨r, hr, hrefused⟩ | hsame
  · refine ⟨[], s.complaints (s.refused s.engine.quotingMark r), ?_⟩
    have hrun : (inDialect f).outcome s = (.error (s.refused s.engine.quotingMark r),
        s.complain (s.refused s.engine.quotingMark r)) := by
      unfold inDialect
      rw [outcome_get_bind, hrefused]
      exact outcome_fail _
    have hdone : ((inDialect f).outcome s.fluent).2.trace = s.trace := by
      unfold inDialect
      rw [outcome_get_bind]
      split
      · rfl
      · rw [outcome_fail]
        rfl
    show Surfacing w s _ _ _ ((inDialect f).outcome s) ((inDialect f).outcome s.fluent)
    rw [hrun]
    refine ⟨s.acts_complain _, ?_, .refl w, .unquoted hr rfl rfl rfl calm_nil ?_, nofun⟩
    · exact hs.of_eq rfl rfl rfl rfl
    · exact ⟨[], (List.append_nil _).trans hdone.symm⟩
  · have hclean (fault : Fault) (h : f s.fluent.dialect = .error fault) : fault.isStatement = false :=
      (hf s.engine).clean s.clean_quote_fluent h
    refine ⟨[], [], ?_⟩
    show Surfacing w s _ _ _ ((inDialect f).outcome s) ((inDialect f).outcome s.fluent)
    rw [outcome_inDialect_of_blameless hclean, ← hsame, outcome_inDialect_of_blameless]
    · refine .still (.refl s) hs ?_ (by rw [hsame]; rfl) fun _ _ => trivial
      intro fault h
      cases hclean _ (hsame.symm.trans h)
    · exact fun fault h => hclean fault (hsame.symm.trans h)

/-! ### Statements and rows -/

section

variable {s : Store} {w : Library} (hbacks : w.Backs s) (st : Statement)

include hbacks

theorem raises_send {r : Refusal} (hfailure : s.script.failure = some (s.sent, r)) :
    w.raises (.send s.opened st) = some (st.text s.engine, r) := by
  rw [Library.raises, hbacks.failure, hfailure, hbacks.sent, hbacks.engine]
  exact if_pos rfl

theorem raises_send_eq_none (hfailure : ∀ r, s.script.failure ≠ some (s.sent, r)) :
    w.raises (.send s.opened st) = none := by
  rw [Library.raises, hbacks.failure, hbacks.sent]
  cases hscript : s.script.failure with
  | none => rfl
  | some p =>
    obtain ⟨number, r⟩ := p
    refine if_neg ?_
    rintro rfl
    exact hfailure r hscript

theorem answer_eq : (s.answer st).1 = w.answer (st.text s.engine) := by
  unfold Store.answer Library.answer
  rw [hbacks.replies]
  split
  · cases hreplies : s.script.replies <;> simp [Store.nextReply, hreplies]
  · rfl

theorem backs_answered :
    (w.answering s.opened (st.text s.engine)).Backs
      { s.sending st with script := (s.answer st).2 } := by
  rw [s.answer_script]
  refine ⟨hbacks.engine, hbacks.failure, congrArg (· + 1) hbacks.sent, ?_, fun cursor hcursor => ?_⟩
  · rw [Library.answering, hbacks.replies]
  · have hne : cursor ≠ s.opened := Nat.ne_of_gt hcursor
    exact (Function.update_of_ne hne ..).trans (hbacks.fresh cursor (Nat.le_of_lt hcursor))

end

/-- A statement that is sent is refused, or the library will end its rows as it answered. -/
theorem surfaces_send (st : Statement) :
    Surfaces (send st) w fun p w' => w'.cursors p.1 = some (st.text w'.engine, p.2.refusal) := by
  intro s hs
  have hbacks : w.Backs s := hs.backs
  cases hopen : s.isOpen with
  | false =>
    have hclosed {s : Store} (hopen : s.isOpen = false) :
        (send st).outcome s = (.error (.misuse (.notConnected s.engine.name)), s) := by
      unfold send
      rw [outcome_get_bind, hopen]
      rfl
    refine ⟨[], [], ?_⟩
    show Surfacing w s _ _ _ ((send st).outcome s) ((send st).outcome s.fluent)
    rw [hclosed hopen, hclosed (s := s.fluent) hopen]
    exact .still (.refl s) hs nofun rfl nofun
  | true =>
    by_cases hfailure : ∃ r, s.script.failure = some (s.sent, r)
    · obtain ⟨r, hr⟩ := hfailure
      have hraises := raises_send hbacks st hr
      let w' : Library := { w with sent := w.sent + 1 }
      have hafter : w.afterAll ([.send s.opened st] ++ []) = w' := by
        rw [List.append_nil, Library.afterAll_singleton, Library.after, hraises]
        rfl
      have hbacks' : w'.Backs (s.sending st) :=
        ⟨hbacks.engine, hbacks.failure, congrArg (· + 1) hbacks.sent, hbacks.replies,
          fun cursor hcursor => hbacks.fresh cursor (Nat.le_of_lt hcursor)⟩
      have hparts : [Event.send s.opened st] ++ [] = [] ++ .send s.opened st :: [] := rfl
      refine ⟨[.send s.opened st] ++ [],
        [s.announcement st] ++ s.complaints (s.refused (st.text s.engine) r), ?_⟩
      show Surfacing w s _ _ _ ((send st).outcome s) _
      rw [outcome_send_refused hopen hr, outcome_fail]
      exact .of_after hafter ((s.acts_sending st).trans (Store.acts_complain _ _))
        ⟨hbacks'.of_eq rfl rfl rfl rfl, trivial⟩ ⟨rfl, fun _ _ h => h⟩
        (.raised hparts rfl hraises nofun rfl rfl (s.calm_announcement st)) nofun
    · have hanswers (r : Refusal) : s.script.failure ≠ some (s.sent, r) := fun h => hfailure ⟨r, h⟩
      have hraises := raises_send_eq_none hbacks st hanswers
      have hafter : w.afterAll [.send s.opened st] = w.answering s.opened (st.text s.engine) := by
        rw [Library.afterAll_singleton, Library.after, hraises, hbacks.engine]
        rfl
      refine ⟨[.send s.opened st], [s.announcement st], ?_⟩
      show Surfacing w s _ _ _ ((send st).outcome s) ((send st).outcome s.fluent)
      rw [outcome_send_answered hopen hanswers, outcome_send_answered (s := s.fluent) hopen hanswers]
      refine .of_after hafter ?_ ⟨backs_answered hbacks st, trivial⟩
        (Library.later_answering _ (hbacks.fresh _ (Nat.le_refl _)))
        (.quiet ?_ nofun (.inl (s.calm_announcement st)) ?_) ?_
      · refine (s.acts_sending st).trans (.of_eq rfl rfl rfl rfl ?_)
        show (s.answer st).2.quoting = _
        rw [s.answer_script]
        rfl
      · rw [Library.raised_singleton, hraises]
        rfl
      · rw [s.answer_fluent]
        rfl
      · rintro _ ⟨⟩
        have hengine : (w.answering s.opened (st.text s.engine)).engine = s.engine := hbacks.engine
        rw [answer_eq hbacks, hengine]
        exact Function.update_self ..

/-- When more rows are asked for, the error after the last of them is raised if there is one. -/
theorem surfaces_asking {e : Event} {cursor : Nat} {refusal : Option Refusal} {next : Action α}
    (hsend : e.statement? = none)
    (hraises : w.raises e = refusal.map fun r => (st.text w.engine, r))
    (hnext : refusal = none → Surfaces next w Q) :
    Surfaces (do
      record e
      match refusal with
      | some r => failReading cursor st r
      | none => next) w Q := by
  cases refusal with
  | none =>
    refine (surfaces_record (Q := fun _ w' => w' = w) hsend hraises rfl).bind ?_
    rintro _ _ - rfl
    exact hnext rfl
  | some r =>
    intro s hs
    have hafter : w.after e = w := Library.after_of_statement?_eq_none hsend
    let s₁ : Store := { s with trace := s.trace ++ [e] ++ [.close cursor] }
    have hacts : s.Acts ([e] ++ [.close cursor]) ([] ++ []) s₁ :=
      (Store.Acts.recorded s hsend).trans (.recorded _ rfl)
    have hrefused : s₁.refused (st.text s.engine) r = s.refused (st.text s.engine) r := rfl
    refine ⟨[e] ++ [.close cursor] ++ [], [] ++ [] ++ s.complaints (s.refused (st.text s.engine) r), ?_⟩
    show Surfacing w s _ _ _ ((fail (s.refused (st.text s.engine) r) : Action α).outcome s₁) _
    rw [outcome_fail]
    have hafterAll : w.afterAll ([e] ++ [.close cursor] ++ []) = w := hafter
    have hparts : [e] ++ [.close cursor] ++ [] = [] ++ e :: [.close cursor] := rfl
    refine .of_after hafterAll (hacts.trans (s₁.acts_complain _)) (hs.of_eq rfl rfl rfl rfl) (.refl w)
      (.raised hparts rfl ?_ ?_ rfl rfl calm_nil) nofun
    · rw [Library.afterAll_nil, hraises, hs.backs.engine]
      rfl
    · exact List.forall_mem_singleton.mpr ⟨cursor, rfl⟩

theorem candid_send (st : Statement) : Candid (send st) :=
  .of_surfaces fun _ => surfaces_send st

theorem candid_change (st : Statement) : Candid (change st) := by
  unfold change
  exact (candid_send st).bind fun _ => (candid_record rfl fun _ => rfl).bind fun _ =>
    .get_bind (fun _ => rfl) fun _ => .pure _

theorem candid_rows (st : Statement) : Candid (rows st) := by
  refine ⟨fun w => ?_⟩
  unfold rows
  refine (surfaces_send st).bind ?_
  rintro ⟨cursor, reply⟩ w' - hcursor
  refine surfaces_asking rfl (Library.raises_fetchAll hcursor) fun _ => ?_
  exact ((candid_record rfl fun _ => rfl).bind fun _ => .pure _).surfaces w'

theorem surfaces_endRows {cursor : Nat} {refusal : Option Refusal}
    (hcursor : w.cursors cursor = some (st.text w.engine, refusal)) :
    Surfaces (endRows cursor st refusal) w fun _ _ => True :=
  surfaces_asking rfl (Library.raises_fetch hcursor) fun _ =>
    (candid_record rfl fun _ => rfl).surfaces w

/-- A row that there is comes without any error. -/
theorem surfaces_fetch_bind {cursor : Nat} {f : Unit → Action α} (hf : Surfaces (f ()) w Q) :
    Surfaces (record (.fetch cursor true) >>= f) w Q := by
  refine (surfaces_record (Q := fun _ w' => w' = w) rfl rfl rfl).bind ?_
  rintro _ _ - rfl
  exact hf

theorem surfaces_readEach {cursor : Nat} {refusal : Option Refusal} (rows : List Row)
    (hcursor : w.cursors cursor = some (st.text w.engine, refusal)) :
    Surfaces (readEach cursor st refusal rows) w fun _ _ => True := by
  induction rows with
  | nil => exact (surfaces_endRows hcursor).bind fun _ _ _ _ => .pure trivial
  | cons row rows ih =>
    unfold readEach
    exact surfaces_fetch_bind (ih.bind fun _ _ _ _ => .pure trivial)

theorem candid_eachRow (st : Statement) : Candid (eachRow st) := by
  refine ⟨fun w => ?_⟩
  unfold eachRow
  refine (surfaces_send st).bind ?_
  rintro ⟨cursor, reply⟩ w' - hcursor
  exact surfaces_readEach reply.rows hcursor

/-- A connection that cannot be opened is reported as that, and no statement is blamed for it. -/
theorem candid_failConnecting (r : Refusal) : Candid (failConnecting r) := by
  unfold failConnecting
  split
  · constructor
    intro w s hs
    let call : LogCall := ⟨s.ownLogger, .error, s.engine.name ++ " 연결 실패: " ++ r.text, []⟩
    refine ⟨[], [call], ⟨(List.append_nil _).symm, rfl, rfl,
      List.forall_mem_singleton.mpr ⟨rfl, fun _ _ => rfl⟩, rfl, rfl, rfl⟩, ?_, .refl w,
      .quiet rfl nofun (.inr ⟨List.forall_mem_singleton.mpr fun _ => rfl, _, rfl⟩) rfl, nofun⟩
    exact hs.of_eq rfl rfl rfl rfl
  · exact .throw rfl

/-- The failures that an action meets surface when those of its parts do. -/
theorem candid_composes : Composes fun _ a => Candid a where
  pure := .pure
  throw := .throw
  bind := .bind
  get_bind := .get_bind
  aside := candid_aside
  log := candid_log
  logOf := candid_logOf
  inDialect := candid_inDialect
  record := fun {e} he => by
    cases e with
    | send | fetch | fetchAll | close => cases he
    | _ => exact candid_record rfl fun _ => rfl
  failConnecting := candid_failConnecting
  change := candid_change
  rows := candid_rows

end Action

end DocStore
