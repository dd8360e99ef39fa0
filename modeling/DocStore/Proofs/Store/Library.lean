import DocStore.Proofs.Store.Run
import Mathlib.Logic.Function.Basic

/-!
The library behind a connection. What was done to it determines which errors it
raises: a statement may be refused when it is sent, whether no cursor is opened
for it or it is not executed, and the rows of a query may end with an error,
which is raised when all rows are asked for, or the row after the last one. This
is told here from the script of the database and from the events alone, whatever
the store makes of it.
-/

namespace DocStore

/-! ### Messages -/

/-- One message that was logged. -/
structure LogCall where
  logger : Logger
  level : Level
  message : Text
  metadata : Members

namespace LogCall

/-- The journal after one more message. -/
def into (j : Journal) (call : LogCall) : Journal :=
  call.logger.log call.level call.message none call.metadata j

/-- What a message tells about a statement that is sent next. -/
def announced? (call : LogCall) : Option Members :=
  if call.level = .debug then some call.metadata else none

end LogCall

/-- Nothing among some messages is logged as an error. -/
def Calm (calls : List LogCall) : Prop := ∀ call ∈ calls, call.level ≠ .error

theorem calm_nil : Calm [] := nofun

theorem calm_singleton {call : LogCall} (h : call.level ≠ .error) : Calm [call] :=
  List.forall_mem_singleton.mpr h

theorem Calm.append {calls calls' : List LogCall} (h : Calm calls) (h' : Calm calls') :
    Calm (calls ++ calls') := List.forall_mem_append.mpr ⟨h, h'⟩

/-- Only announcements among some messages carry anything. -/
def Wordless (calls : List LogCall) : Prop := ∀ call ∈ calls, call.level ≠ .debug → call.metadata = []

theorem Wordless.append {calls calls' : List LogCall} (h : Wordless calls) (h' : Wordless calls') :
    Wordless (calls ++ calls') := List.forall_mem_append.mpr ⟨h, h'⟩

/-! ### The library -/

/-- What an engine's library holds of the database: what it will still be told, and how the rows of
each cursor end. -/
structure Library where
  engine : Engine
  /-- The statement that is refused, by its number. -/
  failure : Option (Nat × Refusal)
  /-- How many statements were sent. -/
  sent : Nat
  /-- The answers to the next queries. -/
  replies : List Reply
  /-- The statement of every cursor, and the error after its last row. -/
  cursors : Nat → Option (Text × Option Refusal)

namespace Library

/-- The library when the database follows another script. -/
def follow (w : Library) (script : Script) : Library :=
  { w with failure := script.failure, sent := 0, replies := script.replies }

/-- The error that is raised by an event, with the statement that is run. -/
def raises (w : Library) : Event → Option (Text × Refusal)
  | .send _ statement =>
    match w.failure with
    | some (number, r) => if number = w.sent then some (statement.text w.engine, r) else none
    | none => none
  | .fetch cursor false | .fetchAll cursor =>
    match w.cursors cursor with
    | some (sql, some r) => some (sql, r)
    | _ => none
  | _ => none

/-- The answer to a statement; only a query takes a reply. -/
def answer (w : Library) (sql : Text) : Reply :=
  if Action.isQuery sql then w.replies.headD {} else {}

/-- The library once a statement was answered. -/
def answering (w : Library) (cursor : Nat) (sql : Text) : Library :=
  { w with
    sent := w.sent + 1
    replies := if Action.isQuery sql then w.replies.tail else w.replies
    cursors := Function.update w.cursors cursor (some (sql, (w.answer sql).refusal)) }

/-- The library after an event. -/
def after (w : Library) (e : Event) : Library :=
  match e with
  | .send cursor statement =>
    if (w.raises e).isSome then { w with sent := w.sent + 1 }
    else w.answering cursor (statement.text w.engine)
  | _ => w

/-- The library after some events. -/
def afterAll (w : Library) (es : List Event) : Library := es.foldl after w

/-- The errors that are raised by some events, the first first. -/
def raised : Library → List Event → List (Text × Refusal)
  | _, [] => []
  | w, e :: es => (w.raises e).toList ++ (w.after e).raised es

variable {w w' w'' : Library} {e : Event} {es es' : List Event}

@[simp] theorem afterAll_nil : w.afterAll [] = w := rfl

@[simp] theorem afterAll_singleton : w.afterAll [e] = w.after e := rfl

theorem afterAll_append : w.afterAll (es ++ es') = (w.afterAll es).afterAll es' := List.foldl_append

@[simp] theorem raised_singleton : w.raised [e] = (w.raises e).toList := List.append_nil _

theorem raised_append : w.raised (es ++ es') = w.raised es ++ (w.afterAll es).raised es' := by
  induction es generalizing w with
  | nil => rfl
  | cons e es ih =>
    show (w.raises e).toList ++ (w.after e).raised (es ++ es') = _
    rw [ih, ← List.append_assoc]
    rfl

/-- Only statements change what the library holds. -/
theorem after_of_statement?_eq_none (h : e.statement? = none) : w.after e = w := by
  cases e with
  | send => cases h
  | _ => rfl

/-- How the rows of a cursor end stays as it is. -/
structure Later (w w' : Library) : Prop where
  engine : w'.engine = w.engine
  cursors : ∀ cursor x, w.cursors cursor = some x → w'.cursors cursor = some x

theorem Later.refl (w : Library) : w.Later w := ⟨rfl, fun _ _ h => h⟩

theorem Later.trans (h : w.Later w') (h' : w'.Later w'') : w.Later w'' :=
  ⟨h'.engine.trans h.engine, fun cursor x hx => h'.cursors cursor x (h.cursors cursor x hx)⟩

/-- The rows of a statement end as they did. -/
theorem Later.statement (h : w.Later w') {cursor : Nat} {st : Statement} {refusal : Option Refusal}
    (hcursor : w.cursors cursor = some (st.text w.engine, refusal)) :
    w'.cursors cursor = some (st.text w'.engine, refusal) := by
  rw [h.engine]
  exact h.cursors _ _ hcursor

theorem later_answering {cursor : Nat} (sql : Text) (hfresh : w.cursors cursor = none) :
    w.Later (w.answering cursor sql) := by
  refine ⟨rfl, fun n x hx => ?_⟩
  have hne : n ≠ cursor := by
    rintro rfl
    rw [hfresh] at hx
    cases hx
  exact (Function.update_of_ne hne ..).trans hx

/-- The rows of a cursor end with the error that was answered. -/
theorem raises_fetch {cursor : Nat} {sql : Text} {refusal : Option Refusal}
    (h : w.cursors cursor = some (sql, refusal)) :
    w.raises (.fetch cursor false) = refusal.map fun r => (sql, r) := by
  rw [raises, h]
  cases refusal <;> rfl

theorem raises_fetchAll {cursor : Nat} {sql : Text} {refusal : Option Refusal}
    (h : w.cursors cursor = some (sql, refusal)) :
    w.raises (.fetchAll cursor) = refusal.map fun r => (sql, r) := by
  rw [raises, h]
  cases refusal <;> rfl

/-- The library is that of a store: it is told what the script of the store says, and the next cursor
is a new one. -/
structure Backs (w : Library) (s : Store) : Prop where
  engine : w.engine = s.engine
  failure : w.failure = s.script.failure
  sent : w.sent = s.sent
  replies : w.replies = s.script.replies
  fresh : ∀ cursor, s.opened ≤ cursor → w.cursors cursor = none

/-- The library does not know of anything else. -/
theorem Backs.of_eq {s s' : Store} (h : w.Backs s) (hoptions : s'.options = s.options)
    (hscript : s'.script = s.script) (hsent : s'.sent = s.sent) (hopened : s'.opened = s.opened) :
    w.Backs s' where
  engine := h.engine.trans (congrArg ConnectionOptions.engine hoptions.symm)
  failure := by rw [hscript]; exact h.failure
  sent := by rw [hsent]; exact h.sent
  replies := by rw [hscript]; exact h.replies
  fresh := by rw [hopened]; exact h.fresh

end Library

namespace Store

/-- A store whose connection quotes every text. -/
def fluent (s : Store) : Store := { s with script := { s.script with quoting := none } }

/-- The library of a store that holds no cursor. -/
def library (s : Store) : Library :=
  ⟨s.engine, s.script.failure, s.sent, s.script.replies, fun _ => none⟩

theorem library_backs (s : Store) : s.library.Backs s := ⟨rfl, rfl, rfl, rfl, fun _ _ => rfl⟩

theorem follow_backs {w : Library} {s : Store} (h : w.Backs s) (script : Script) :
    (w.follow script).Backs (s.follow script) := ⟨h.engine, rfl, rfl, rfl, h.fresh⟩

/-- The message about a refused statement: an error, with the statement and the code. -/
def complaint (s : Store) (f : StatementFault) : LogCall :=
  ⟨s.ownLogger, .error, "SQL 실행 실패: " ++ f.error,
    Members.one "sql" (.str f.sql) ++ Members.one "error_code" f.code⟩

/-- What a refused statement is reported as depends on the engine alone. -/
theorem refused_of_engine {s s' : Store} (h : s'.engine = s.engine) : s'.refused = s.refused := by
  funext sql r
  rw [refused, refused, h]

/-- What is logged about a fault: only a refused statement is. -/
def complaints (s : Store) : Fault → List LogCall
  | .statement f => [s.complaint f]
  | _ => []

/-- A message of a store, whose loggers all leave out what the logger that it was given leaves out.
Beside announcements, only errors carry anything. -/
structure Tells (s : Store) (call : LogCall) : Prop where
  least : call.logger.least = s.logger.least
  bare : call.level ≠ .debug → call.level ≠ .error → call.metadata = []

/-- Where no error is among the messages of a store, they are announcements or carry nothing. -/
theorem wordless_of_calm {s : Store} {calls : List LogCall} (htells : ∀ call ∈ calls, s.Tells call)
    (hcalm : Calm calls) : Wordless calls :=
  fun call hmem hdebug => (htells call hmem).bare hdebug (hcalm call hmem)

/-- What a store has done to the library and logged until it became another one. Every statement is
announced before it is sent. -/
structure Acts (s : Store) (es : List Event) (calls : List LogCall) (s' : Store) : Prop where
  trace : s'.trace = s.trace ++ es
  journal : s'.journal = calls.foldl LogCall.into s.journal
  announced : calls.filterMap LogCall.announced? =
    (sentTexts s.engine es).map fun t => Members.one LogRecord.sqlKey (.str t)
  tells : ∀ call ∈ calls, s.Tells call
  options : s'.options = s.options
  logger : s'.logger = s.logger
  quoting : s'.script.quoting = s.script.quoting

/-- Only what the library does not know of is different. -/
def Aside (s s' : Store) : Prop :=
  ∃ isOpen given collections registry,
    s' = { s with isOpen := isOpen, given := given, collections := collections, registry := registry }

theorem Aside.backs {s s' : Store} {w : Library} (h : s.Aside s') (hbacks : w.Backs s) : w.Backs s' := by
  obtain ⟨_, _, _, _, rfl⟩ := h
  exact hbacks.of_eq rfl rfl rfl rfl

namespace Acts

variable {s s' s'' : Store} {es es' : List Event} {calls calls' : List LogCall}

theorem of_eq (htrace : s'.trace = s.trace) (hjournal : s'.journal = s.journal)
    (hoptions : s'.options = s.options) (hlogger : s'.logger = s.logger)
    (hquoting : s'.script.quoting = s.script.quoting) : s.Acts [] [] s' :=
  ⟨htrace.trans (List.append_nil _).symm, hjournal, rfl, nofun, hoptions, hlogger, hquoting⟩

theorem of_aside (h : s.Aside s') : s.Acts [] [] s' := by
  obtain ⟨_, _, _, _, rfl⟩ := h
  exact .of_eq rfl rfl rfl rfl rfl

theorem refl (s : Store) : s.Acts [] [] s := .of_eq rfl rfl rfl rfl rfl

theorem recorded (s : Store) {e : Event} (h : e.statement? = none) :
    s.Acts [e] [] { s with trace := s.trace ++ [e] } := by
  refine ⟨rfl, rfl, ?_, nofun, rfl, rfl, rfl⟩
  rw [sentTexts_eq]
  simp [sentStatements, h]

theorem engine (h : s.Acts es calls s') : s'.engine = s.engine :=
  congrArg ConnectionOptions.engine h.options

theorem trans (h : s.Acts es calls s') (h' : s'.Acts es' calls' s'') :
    s.Acts (es ++ es') (calls ++ calls') s'' where
  trace := by rw [h'.trace, h.trace, List.append_assoc]
  journal := by rw [h'.journal, h.journal, List.foldl_append]
  announced := by
    rw [List.filterMap_append, h.announced, h'.announced, h.engine, sentTexts_append, List.map_append]
  tells := List.forall_mem_append.mpr ⟨h.tells, fun call hmem =>
    ⟨(h'.tells call hmem).least.trans (congrArg Logger.least h.logger), (h'.tells call hmem).bare⟩⟩
  options := h'.options.trans h.options
  logger := h'.logger.trans h.logger
  quoting := h'.quoting.trans h.quoting

theorem ownLogger (h : s.Acts es calls s') : s'.ownLogger = s.ownLogger := by
  rw [Store.ownLogger, Store.ownLogger, context, context, h.engine, h.logger]

theorem refused (h : s.Acts es calls s') : s'.refused = s.refused := refused_of_engine h.engine

theorem complaints (h : s.Acts es calls s') : s'.complaints = s.complaints := by
  funext fault
  cases fault with
  | statement f => rw [Store.complaints, Store.complaints, complaint, complaint, h.ownLogger]
  | _ => rfl

theorem quotingRefusal (h : s.Acts es calls s') : s'.quotingRefusal = s.quotingRefusal := by
  rw [Store.quotingRefusal, Store.quotingRefusal, h.engine, h.quoting]

theorem prefix_trace (h : s.Acts es calls s') : s.trace <+: s'.trace := ⟨es, h.trace.symm⟩

end Acts

end Store

end DocStore
