import DocStore.Proofs.Session.Step
import DocStore.Proofs.Store.Statement

/-!
Tables over the life of a session. A session is asked for one thing after
another, by a database that refuses nothing, and may hold on to collections
whose tables were dropped meanwhile. As long as every table is dropped by the
only collection that knows of it, every statement on documents comes while its
table is there. Where two collections have one table, one of them does not
get to know that the other one dropped it.
-/

namespace DocStore

open SessionAction in
/-- What is asked besides verbs is steps of the store. -/
theorem Request.within_run {session : Session} {r : Request} (hr : ∀ v, r ≠ .verb v) :
    Within r.run session fun _ _ => True := by
  have hsearch (name criteria : Value) {s : Store} :
      Action.Within (fun _ => True) (Action.search name criteria) s fun _ _ => True :=
    Action.within_search (fun _ _ => trivial) name criteria
  cases r with
  | verb v => exact absurd rfl (hr v)
  | find name criteria =>
    refine (within_ofAction (Q := fun _ _ => True) ?_).bind fun documents session₁ _ _ => ?_
    · refine (hsearch name criteria).bind ?_
      rintro ⟨c, filter, options⟩ s₁ - -
      exact (Action.within_find (fun _ _ => trivial) fun _ _ => trivial).weaken
    · exact (within_handOut (by nofun)).bind fun _ _ _ _ => .pure trivial
  | findLazily name criteria =>
    refine (within_ofAction (hsearch name criteria)).bind ?_
    rintro ⟨c, filter, options⟩ session₁ - -
    exact (within_handOut (by nofun)).bind fun _ _ _ _ => .pure trivial
  | cursor c filter options =>
    refine (within_ofAction (Action.within_findOptions options)).bind fun options session₁ _ _ => ?_
    exact (within_handOut (by nofun)).bind fun _ _ _ _ => .pure trivial
  | relate h kind relations =>
    exact (within_relate h kind relations).bind fun _ _ _ _ => .pure trivial
  | occurrences h v => exact (within_occurrences h v).bind fun _ _ _ _ => .pure trivial
  | toList h => exact (within_toList h).bind fun _ _ _ _ => .pure trivial
  | iterate h => exact (within_iterate h).bind fun _ _ _ _ => .pure trivial
  | next h count =>
    refine (within_take h count).bind ?_
    rintro ⟨documents, ended⟩ session₁ - -
    exact .pure trivial
  | isConsumed h => exact (within_isConsumed h).bind fun _ _ _ _ => .pure trivial

/-- A turn of a session: what is asked, and what the database does meanwhile. -/
structure Turn where
  script : Script
  request : Request

namespace Session

/-- The session that a turn begins with. -/
def turnTo (session : Session) (script : Script) : Session :=
  { session with store := session.store.follow script }

/-- The session after a turn. -/
def after (session : Session) (t : Turn) : Session :=
  (t.request.run.outcome (session.turnTo t.script)).2

/-- What a turn replied. -/
def reply (session : Session) (t : Turn) : Except Fault Response :=
  (t.request.run.outcome (session.turnTo t.script)).1

/-- The session after some turns. -/
def afterAll (session : Session) (turns : List Turn) : Session := turns.foldl after session

/-- A turn drops a table only where no other collection knows of the table that it is there. -/
def DropsAlone (session : Session) (t : Turn) : Prop :=
  ∀ v, t.request = .verb v → v.DropsAlone (session.turnTo t.script).store

/-- In every turn the database refuses nothing, and tables are dropped by the only collections that
know of them. -/
def Undisturbed : Session → List Turn → Prop
  | _, [] => True
  | session, t :: turns =>
    (t.script.failure = none ∧ session.DropsAlone t) ∧ (session.after t).Undisturbed turns

/-- Nothing was done with a session yet. -/
structure IsNew (session : Session) : Prop where
  sent : sentStatements session.store.trace = []
  collections : session.store.collections = []
  handles : session.handles = []

/-- What collections know of their tables is so, and the queries that a caller holds on to read the
tables of their collections. -/
structure Sound (session : Session) : Prop where
  store : session.store.Sound
  fits : session.Fits

variable {session : Session}

theorem IsNew.sound (h : session.IsNew) : session.Sound where
  store := by
    constructor
    · rw [h.sent]
      trivial
    · rintro c table ⟨x, hx, -⟩
      rw [h.collections] at hx
      cases hx
  fits := .of_nil h.handles

/-- A verb changes the store of a session, and nothing that was handed out. -/
theorem outcome_verb (v : Verb) : (Request.verb v).run.outcome session =
    ((v.run.outcome session.store).1.map Response.answer,
      { session with store := (v.run.outcome session.store).2 }) := by
  rcases h : v.run.outcome session.store with ⟨r, s'⟩
  have hrun := SessionAction.outcome_ofAction h
  cases r with
  | ok a => exact SessionAction.outcome_bind_ok hrun
  | error fault => exact SessionAction.outcome_bind_error hrun

theorem after_verb (script : Script) (v : Verb) :
    session.after ⟨script, .verb v⟩ =
      { session with store := (v.run.outcome (session.store.follow script)).2 } :=
  congrArg Prod.snd (outcome_verb v)

theorem reply_verb (script : Script) (v : Verb) :
    session.reply ⟨script, .verb v⟩ =
      (v.run.outcome (session.store.follow script)).1.map Response.answer :=
  congrArg Prod.fst (outcome_verb v)

/-- A turn begins with the store as it was left, but for what the database will do. -/
theorem turnTo_idles (script : Script) : session.store.Idles (session.turnTo script).store :=
  .of_eq rfl rfl

theorem Fits.turnTo (h : session.Fits) (script : Script) : (session.turnTo script).Fits :=
  h.retained rfl (turnTo_idles script).retains

/-- A turn that is no verb takes steps of the store. -/
theorem steps_after {t : Turn} (hfits : session.Fits) (ht : ∀ v, t.request ≠ .verb v) :
    (session.turnTo t.script).store.Steps (fun _ => True) (session.after t).store ∧
      (session.after t).Fits := by
  have hrun : SessionAction.Within t.request.run (session.turnTo t.script) _ :=
    Request.within_run ht
  obtain ⟨hsteps, hfits', -⟩ := hrun (hfits.turnTo t.script)
  exact ⟨hsteps, hfits'⟩

/-- What one turn preserves. -/
theorem Sound.after {t : Turn} (hs : session.Sound) (hfailure : t.script.failure = none)
    (halone : session.DropsAlone t) :
    (session.after t).Sound ∧ session.store.Retains (session.after t).store := by
  have hidles : session.store.Idles (session.turnTo t.script).store := turnTo_idles t.script
  have hstart := hidles.sound hs.store
  -- A verb may drop a table, which is no step; whatever else is asked is made of steps.
  obtain ⟨script, request⟩ := t
  by_cases hv : ∃ v, request = .verb v
  · obtain ⟨v, rfl⟩ := hv
    obtain ⟨hsound, hretained⟩ := Verb.ensures_sound hfailure (halone v rfl) hstart
    rw [after_verb]
    exact ⟨⟨hsound, (hs.fits.turnTo script).retained rfl hretained⟩, hidles.retains.trans hretained⟩
  · obtain ⟨hsteps, hfits⟩ := steps_after (t := ⟨script, request⟩) hs.fits fun v h => hv ⟨v, h⟩
    exact ⟨⟨hsteps.sound hstart, hfits⟩, hidles.retains.trans hsteps.retains⟩

/-- What a run of turns preserves. -/
theorem Sound.afterAll {turns : List Turn} (hs : session.Sound) (hturns : session.Undisturbed turns) :
    (session.afterAll turns).Sound ∧ session.store.Retains (session.afterAll turns).store := by
  induction turns generalizing session with
  | nil => exact ⟨hs, .of_eq rfl rfl⟩
  | cons t turns ih =>
    obtain ⟨⟨hfailure, halone⟩, hrest⟩ := hturns
    obtain ⟨hafter, hretains⟩ := hs.after hfailure halone
    obtain ⟨hall, hretained⟩ := ih hafter hrest
    exact ⟨hall, hretains.trans hretained⟩

/-- As long as tables are dropped by the only collections that know of them, every statement on
documents is sent while its table is there. -/
theorem afterAll_orderly {turns : List Turn} (hnew : session.IsNew)
    (hturns : session.Undisturbed turns) :
    Statement.Orderly session.store.engine []
      (sentStatements (session.afterAll turns).store.trace) := by
  obtain ⟨hsound, hretains⟩ := hnew.sound.afterAll hturns
  have horderly := hsound.store.orderly
  rw [Store.engine, hretains.options] at horderly
  exact horderly

/-- A session with an open store that nothing was obtained from yet. -/
def fresh (e : Engine) : Session := ⟨{ Store.ready e with collections := [] }, []⟩

theorem fresh_isNew (e : Engine) : (fresh e).IsNew := ⟨rfl, rfl, rfl⟩

set_option maxRecDepth 4000 in
/-- A collection that was dropped is used once more, beside another one. -/
theorem afterAll_orderly_recreated :
    let turns : List Turn := [⟨{}, .verb (.obtain (.str "a") .null)⟩,
      ⟨{}, .verb (.obtain (.str "b") .null)⟩, ⟨{}, .verb (.on 0 .drop)⟩,
      ⟨{}, .verb (.on 0 (.count .everything))⟩, ⟨{}, .verb (.on 1 (.count .everything))⟩]
    (fresh .sqlite).Undisturbed turns ∧
      Statement.Orderly .sqlite []
        (sentStatements ((fresh .sqlite).afterAll turns).store.trace) := by
  intro turns
  have hundisturbed : (fresh .sqlite).Undisturbed turns := by
    refine ⟨⟨rfl, ?_⟩, ⟨rfl, ?_⟩, ⟨rfl, ?_⟩, ⟨rfl, ?_⟩, ⟨rfl, ?_⟩, trivial⟩
    · rintro v ⟨⟩
      trivial
    · rintro v ⟨⟩
      trivial
    · rintro v ⟨⟩ x hx d ⟨y, hy, htable, -⟩
      replace hx : [(⟨"a", "a", true⟩ : Collection), ⟨"b", "b", true⟩][0]? = some x := hx
      replace hy : [(⟨"a", "a", true⟩ : Collection), ⟨"b", "b", true⟩][d]? = some y := hy
      cases hx
      match d with
      | 0 => rfl
      | 1 =>
        cases hy
        exact absurd htable (by decide)
    · rintro v ⟨⟩
      trivial
    · rintro v ⟨⟩
      trivial
  exact ⟨hundisturbed, afterAll_orderly (fresh_isNew .sqlite) hundisturbed⟩

/-- Two collections of one table: when one of them drops it, the other one counts documents of a table
that is not there. -/
theorem afterAll_not_orderly_of_shared_table :
    (fresh .sqlite).IsNew ∧
      ¬ Statement.Orderly .sqlite []
        (sentStatements ((fresh .sqlite).afterAll
          [⟨{}, .verb (.obtain (.str "a/b") .null)⟩, ⟨{}, .verb (.obtain (.str "a_b") .null)⟩,
            ⟨{}, .verb (.on 0 .drop)⟩, ⟨{}, .verb (.on 1 (.count .everything))⟩]).store.trace) :=
  ⟨fresh_isNew .sqlite, by decide +kernel⟩

end Session

end DocStore
