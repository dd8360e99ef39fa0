import DocStore.Store.Connection

/-!
Runs of actions. What an action ensures is a condition on its result and on the
store after it, put together step by step from what its parts ensure. Between
the store before and the store after stands what was done to the library, and
beside it nothing changes that the next step depends on: the options, what the
database does, and where the documents of a collection are.
-/

namespace DocStore

/-- The text of the statement that an event sends. -/
def Event.text? (e : Engine) : Event → Option Text
  | .send _ statement => some (statement.text e)
  | _ => none

/-- The texts of the statements that are sent, the first first. -/
def sentTexts (e : Engine) (es : List Event) : List Text := es.filterMap (Event.text? e)

theorem sentTexts_append (e : Engine) (es es' : List Event) :
    sentTexts e (es ++ es') = sentTexts e es ++ sentTexts e es' := List.filterMap_append

/-- The statement that an event sends. -/
def Event.statement? : Event → Option Statement
  | .send _ statement => some statement
  | _ => none

/-- The statements that are sent, the first first. -/
def sentStatements (es : List Event) : List Statement := es.filterMap Event.statement?

theorem sentStatements_append (es es' : List Event) :
    sentStatements (es ++ es') = sentStatements es ++ sentStatements es' := List.filterMap_append

theorem sentTexts_eq (e : Engine) (es : List Event) :
    sentTexts e es = (sentStatements es).map (Statement.text e) := by
  have h : Event.text? e = fun x : Event => x.statement?.map (Statement.text e) := by
    funext x
    cases x <;> rfl
  rw [sentStatements, List.map_filterMap, sentTexts, h]

namespace Store

/-- One store comes after another one, with these events between them. -/
structure Leads (s : Store) (es : List Event) (s' : Store) : Prop where
  trace : s'.trace = s.trace ++ es
  options : s'.options = s.options
  isOpen : s'.isOpen = s.isOpen
  identifiers : s'.identifiers = s.identifiers
  failure : s'.script.failure = s.script.failure
  quoting : s'.script.quoting = s.script.quoting
  unquotable : s'.script.unquotable = s.script.unquotable
  tables : ∀ (c : Nat) (x : Collection), s.collections[c]? = some x →
    ∃ x' : Collection, s'.collections[c]? = some x' ∧ x'.name = x.name ∧ x'.table = x.table

/-- The answer to a statement, and the script after it; only a query takes a reply. -/
def answer (s : Store) (statement : Statement) : Reply × Script :=
  if Action.isQuery (statement.text s.engine) then nextReply s.script else ({}, s.script)

namespace Leads

variable {s s' s'' : Store} {es es' : List Event}

theorem refl (s : Store) : s.Leads [] s :=
  ⟨(List.append_nil _).symm, rfl, rfl, rfl, rfl, rfl, rfl, fun _ x h => ⟨x, h, rfl, rfl⟩⟩

theorem trans (h : s.Leads es s') (h' : s'.Leads es' s'') : s.Leads (es ++ es') s'' where
  trace := by rw [h'.trace, h.trace, List.append_assoc]
  options := h'.options.trans h.options
  isOpen := h'.isOpen.trans h.isOpen
  identifiers := h'.identifiers.trans h.identifiers
  failure := h'.failure.trans h.failure
  quoting := h'.quoting.trans h.quoting
  unquotable := h'.unquotable.trans h.unquotable
  tables c x hx := by
    obtain ⟨y, hy, hname, htable⟩ := h.tables c x hx
    obtain ⟨z, hz, hname', htable'⟩ := h'.tables c y hy
    exact ⟨z, hz, hname'.trans hname, htable'.trans htable⟩

theorem engine (h : s.Leads es s') : s'.engine = s.engine := congrArg ConnectionOptions.engine h.options

/-- The dialect is that of the engine and of the connection, which stay as they are. -/
theorem dialect (h : s.Leads es s') : s'.dialect = s.dialect := by
  have hquote : s'.quote = s.quote := by
    funext t
    simp only [quote, quotingRefusal, refused, h.engine, h.isOpen, h.quoting, h.unquotable]
  rw [Store.dialect, Store.dialect, h.engine, hquote]

/-- Whatever stays as it is does not matter. -/
theorem of_eq (htrace : s'.trace = s.trace ++ es) (hoptions : s'.options = s.options)
    (hopen : s'.isOpen = s.isOpen) (hidentifiers : s'.identifiers = s.identifiers)
    (hscript : s'.script = s.script) (hcollections : s'.collections = s.collections) :
    s.Leads es s' :=
  ⟨htrace, hoptions, hopen, hidentifiers, by rw [hscript], by rw [hscript], by rw [hscript],
    fun _ x hx => ⟨x, by rw [hcollections]; exact hx, rfl, rfl⟩⟩

end Leads

/-- A connection quotes as its engine does. -/
theorem quote_ok {s : Store} {t l : Text} (h : s.quote t = .ok l) : s.engine.quote t = .ok l := by
  unfold quote at h
  split at h
  · cases h
  · split at h
    · cases h
    · split at h
      next hl =>
        cases h
        exact hl
      next => cases h

/-- A store whose connection is open, to a database that refuses nothing. -/
structure Works (s : Store) : Prop where
  isOpen : s.isOpen = true
  failure : s.script.failure = none
  quoting : s.quotingRefusal = none

theorem Leads.works {s s' : Store} {es : List Event} (h : s.Leads es s') (hs : s.Works) :
    s'.Works where
  isOpen := h.isOpen.trans hs.isOpen
  failure := h.failure.trans hs.failure
  quoting := by
    rw [quotingRefusal, h.engine, h.quoting]
    exact hs.quoting

/-- A store is reached from another one, and every text that is sent meets a condition. -/
def Reaches (P : Text → Prop) (s s' : Store) : Prop :=
  ∃ es, s.Leads es s' ∧ ∀ t ∈ sentTexts s.engine es, P t

namespace Reaches

variable {P : Text → Prop} {s s' s'' : Store}

theorem of_leads (h : s.Leads [] s') : s.Reaches P s' := ⟨[], h, nofun⟩

theorem refl (s : Store) : s.Reaches P s := of_leads (.refl s)

theorem trans (h : s.Reaches P s') (h' : s'.Reaches P s'') : s.Reaches P s'' := by
  obtain ⟨es, hs, hP⟩ := h
  obtain ⟨es', hs', hP'⟩ := h'
  refine ⟨es ++ es', hs.trans hs', ?_⟩
  rw [hs.engine] at hP'
  rw [sentTexts_append]
  exact List.forall_mem_append.mpr ⟨hP, hP'⟩

theorem works (h : s.Reaches P s') (hs : s.Works) : s'.Works := by
  obtain ⟨es, hs', -⟩ := h
  exact hs'.works hs

theorem engine (h : s.Reaches P s') : s'.engine = s.engine := by
  obtain ⟨es, hs', -⟩ := h
  exact hs'.engine

theorem identifiers (h : s.Reaches P s') : s'.identifiers = s.identifiers := by
  obtain ⟨es, hs', -⟩ := h
  exact hs'.identifiers

end Reaches

end Store

namespace Action

variable {α β : Type}

/-- What an action comes to from a store: its result, and the store after it. -/
def outcome (a : Action α) (s : Store) : Except Fault α × Store := (a.run.run s).run

/-- An action, from a store, comes to a result and a store that meet a condition. -/
def Ensures (a : Action α) (s : Store) (Q : Except Fault α → Store → Prop) : Prop :=
  Q (a.outcome s).1 (a.outcome s).2

variable {a : Action α} {f : α → Action β} {s : Store} {fault : Fault}
  {P : Except Fault α → Store → Prop} {Q : Except Fault β → Store → Prop}

theorem outcome_get_bind {f : Store → Action β} : (get >>= f).outcome s = (f s).outcome s := rfl

theorem ensures_get_bind {f : Store → Action β} : Ensures (get >>= f) s Q ↔ Ensures (f s) s Q := Iff.rfl

theorem ensures_modify_bind {g : Store → Store} {f : PUnit → Action β} :
    Ensures (modify g >>= f) s Q ↔ Ensures (f ()) (g s) Q := Iff.rfl

theorem outcome_bind_ok {s' : Store} {x : α} (h : a.outcome s = (.ok x, s')) :
    (a >>= f).outcome s = (f x).outcome s' := by
  show ((ExceptT.bindCont f (a.outcome s).1).run (a.outcome s).2).run = _
  rw [h]
  rfl

theorem outcome_bind_error {s' : Store} (h : a.outcome s = (.error fault, s')) :
    (a >>= f).outcome s = (.error fault, s') := by
  show ((ExceptT.bindCont f (a.outcome s).1).run (a.outcome s).2).run = _
  rw [h]
  rfl

/-- Two actions that succeed do so one after the other. -/
theorem exists_of_outcome_bind_ok {s' : Store} {y : β} (h : (a >>= f).outcome s = (.ok y, s')) :
    ∃ x s₁, a.outcome s = (.ok x, s₁) ∧ (f x).outcome s₁ = (.ok y, s') := by
  rcases hrun : a.outcome s with ⟨_ | x, s₁⟩
  · rw [outcome_bind_error hrun] at h
    cases h
  · rw [outcome_bind_ok hrun] at h
    exact ⟨x, s₁, rfl, h⟩

theorem ensures_bind_ok {s' : Store} {x : α} (h : a.outcome s = (.ok x, s'))
    (hf : Ensures (f x) s' Q) : Ensures (a >>= f) s Q := by
  unfold Ensures
  rw [outcome_bind_ok h]
  exact hf

/-- What the first of two actions ensures is what the second one starts from. -/
theorem Ensures.bind (ha : Ensures a s P) (hok : ∀ x s', P (.ok x) s' → Ensures (f x) s' Q)
    (herror : ∀ fault s', P (.error fault) s' → Q (.error fault) s') : Ensures (a >>= f) s Q := by
  unfold Ensures at ha
  rcases h : a.outcome s with ⟨r, s'⟩
  rw [h] at ha
  cases r with
  | ok x =>
    have hf := hok x s' ha
    unfold Ensures at hf ⊢
    rw [outcome_bind_ok h]
    exact hf
  | error fault =>
    unfold Ensures
    rw [outcome_bind_error h]
    exact herror fault s' ha

theorem Ensures.mono {P' : Except Fault α → Store → Prop} (ha : Ensures a s P)
    (h : ∀ r s', P r s' → P' r s') : Ensures a s P' :=
  h _ _ ha

theorem Ensures.and {P' : Except Fault α → Store → Prop} (ha : Ensures a s P)
    (ha' : Ensures a s P') : Ensures a s fun r s' => P r s' ∧ P' r s' := ⟨ha, ha'⟩

/-! ### What the parts of a connection ensure -/

theorem ensures_record_bind {e : Event} {f : Unit → Action β} :
    Ensures (record e >>= f) s Q ↔ Ensures (f ()) { s with trace := s.trace ++ [e] } Q := Iff.rfl

theorem ensures_log_bind {level : Level} {message : Text} {metadata : Members}
    {f : Unit → Action β} :
    Ensures (log level message metadata >>= f) s Q ↔
      Ensures (f ()) { s with
        journal := s.ownLogger.log level message none metadata s.journal } Q := Iff.rfl

theorem ensures_log (level : Level) (message : Text) (metadata : Members) :
    Ensures (log level message metadata) s fun r s' => r = .ok () ∧ s.Leads [] s' :=
  ⟨rfl, .of_eq (List.append_nil _).symm rfl rfl rfl rfl rfl⟩

theorem ensures_logOf (name : Text) (level : Level) (message : Text) :
    Ensures (logOf name level message) s fun r s' => r = .ok () ∧ s.Leads [] s' :=
  ⟨rfl, .of_eq (List.append_nil _).symm rfl rfl rfl rfl rfl⟩

theorem ensures_fail (fault : Fault) :
    Ensures (fail fault : Action α) s fun r s' => r = .error fault ∧ s.Leads [] s' := by
  unfold fail
  have hlog : Ensures (logRefused fault) s fun r s' => r = .ok () ∧ s.Leads [] s' := by
    cases fault with
    | statement f => exact ensures_log ..
    | _ => exact ⟨rfl, .refl s⟩
  refine hlog.bind ?_ ?_
  · rintro _ s' ⟨-, hs'⟩
    exact ⟨rfl, hs'⟩
  · rintro _ _ ⟨h, -⟩
    cases h

theorem ensures_inDialect (f : Dialect → Except Fault α) :
    Ensures (inDialect f) s fun r s' => r = f s.dialect ∧ s.Leads [] s' := by
  unfold inDialect
  rw [ensures_get_bind]
  cases h : f s.dialect with
  | ok x => exact ⟨rfl, .refl s⟩
  | error fault => exact ensures_fail fault

/-- What sending a statement comes to where the connection is open. -/
structure Sent (s : Store) (statement : Statement) (r : Except Fault (Nat × Reply)) (s' : Store) :
    Prop where
  leads : s.Leads [.send s.opened statement] s'
  answered : ∀ p, r = .ok p →
    p = (s.opened, (s.answer statement).1) ∧ s'.script = (s.answer statement).2
  /-- Only the database refuses a statement. -/
  succeeds : s.script.failure = none → ∃ p, r = .ok p

/-- The answer takes a reply off the script and leaves the rest of the script alone. -/
theorem sent_answer {statement : Statement} {s₁ : Store}
    (h : s.Leads [.send s.opened statement] s₁) (hscript : s₁.script = s.script) :
    Ensures (if isQuery (statement.text s.engine) then do
        modify fun s₁ => { s₁ with script := (Store.nextReply s.script).2 }
        return (s.opened, (Store.nextReply s.script).1)
      else return (s.opened, {}) : Action (Nat × Reply)) s₁ (Sent s statement) := by
  have hanswer : s.answer statement = if isQuery (statement.text s.engine) then
      Store.nextReply s.script else ({}, s.script) := rfl
  split
  next hquery =>
    rw [if_pos hquery] at hanswer
    have hscript : (Store.nextReply s.script).2.failure = s.script.failure ∧
        (Store.nextReply s.script).2.quoting = s.script.quoting ∧
        (Store.nextReply s.script).2.unquotable = s.script.unquotable := by
      unfold Store.nextReply
      split <;> exact ⟨rfl, rfl, rfl⟩
    obtain ⟨hfailure, hquoting, hunquotable⟩ := hscript
    refine ⟨⟨h.trace, h.options, h.isOpen, h.identifiers, hfailure, hquoting, hunquotable, h.tables⟩,
      ?_, fun _ => ⟨_, rfl⟩⟩
    rintro _ ⟨⟩
    rw [hanswer]
    exact ⟨rfl, rfl⟩
  next hquery =>
    rw [if_neg hquery] at hanswer
    refine ⟨h, ?_, fun _ => ⟨_, rfl⟩⟩
    rintro _ ⟨⟩
    rw [hanswer]
    exact ⟨rfl, hscript⟩

/-- A statement is sent where the connection is open, and only the database refuses it then. -/
theorem ensures_send (statement : Statement) :
    Ensures (send statement) s fun r s' =>
      (s.isOpen = false ∧ s' = s ∧ ∃ fault, r = .error fault) ∨
        (s.isOpen = true ∧ Sent s statement r s') := by
  unfold send
  rw [ensures_get_bind]
  cases hopen : s.isOpen with
  | false => exact .inl ⟨rfl, rfl, _, rfl⟩
  | true =>
    simp only [Bool.not_true, Bool.false_eq_true, if_false]
    rw [ensures_log_bind, ensures_record_bind, ensures_modify_bind]
    have hsent : s.Leads [.send s.opened statement] { s with
        journal := s.ownLogger.log .debug "SQL 실행" none
          (Members.one LogRecord.sqlKey (.str (statement.text s.engine))) s.journal
        trace := s.trace ++ [.send s.opened statement], sent := s.sent + 1, opened := s.opened + 1 } :=
      .of_eq rfl rfl rfl rfl rfl rfl
    have hanswer := sent_answer hsent rfl
    cases hfailure : s.script.failure with
    | none => exact hanswer.mono fun _ _ h => .inr ⟨trivial, h⟩
    | some p =>
      obtain ⟨number, refusal⟩ := p
      dsimp only
      by_cases hnumber : number = s.sent
      · rw [if_pos hnumber]
        refine (ensures_fail _).bind ?_ ?_
        · rintro _ _ ⟨h, -⟩
          cases h
        · rintro fault s₃ ⟨-, hs₃⟩
          refine .inr ⟨trivial, hsent.trans hs₃, nofun, ?_⟩
          rw [hfailure]
          exact nofun
      · rw [if_neg hnumber]
        exact hanswer.mono fun _ _ h => .inr ⟨trivial, h⟩

/-- A statement without rows is sent once, unless the connection is closed. -/
theorem ensures_change (statement : Statement) :
    Ensures (change statement) s fun r s' =>
      (s.isOpen = false ∧ s' = s ∧ ∃ fault, r = .error fault) ∨
        ∃ es, s.Leads es s' ∧ sentStatements es = [statement] ∧
          ((∃ v, r = .ok v) → s'.script = (s.answer statement).2) ∧
          (s.script.failure = none → ∃ v, r = .ok v) := by
  unfold change
  refine (ensures_send statement).bind ?_ ?_
  · rintro ⟨cursor, reply⟩ s₁ (⟨-, -, _, h⟩ | ⟨-, hs₁⟩)
    · cases h
    · obtain ⟨-, hscript⟩ := hs₁.answered _ rfl
      rw [ensures_record_bind]
      have hs₂ : s₁.Leads [.close cursor] { s₁ with trace := s₁.trace ++ [.close cursor] } :=
        .of_eq rfl rfl rfl rfl rfl rfl
      exact .inr ⟨_, hs₁.leads.trans hs₂, rfl, fun _ => hscript, fun _ => ⟨_, rfl⟩⟩
  · rintro fault s₁ (⟨hclosed, hs₁, -⟩ | ⟨-, hs₁⟩)
    · exact .inl ⟨hclosed, hs₁, fault, rfl⟩
    · refine .inr ⟨_, hs₁.leads, rfl, ?_, fun hfailure => ?_⟩
      · rintro ⟨_, ⟨⟩⟩
      · obtain ⟨_, h⟩ := hs₁.succeeds hfailure
        cases h

/-- What a statement without rows reaches, when its text meets the condition. -/
theorem ensures_change_reaches {P : Text → Prop} (statement : Statement)
    (h : P (statement.text s.engine)) :
    Ensures (change statement) s fun r s' => s.Reaches P s' ∧ (s.Works → ∃ v, r = .ok v) := by
  refine (ensures_change statement).mono ?_
  rintro r s' (⟨hclosed, rfl, -⟩ | ⟨es, hs', hsent, -, hok⟩)
  · refine ⟨.refl s', fun hworks => ?_⟩
    rw [hworks.isOpen] at hclosed
    cases hclosed
  · refine ⟨⟨es, hs', ?_⟩, fun hworks => hok hworks.failure⟩
    rw [sentTexts_eq, hsent]
    exact List.forall_mem_singleton.mpr h

end Action

end DocStore
