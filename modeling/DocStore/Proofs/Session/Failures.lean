import DocStore.Proofs.Session.Candid
import DocStore.Proofs.Session.Stream
import DocStore.Proofs.Session.Tables
import DocStore.Proofs.Store.Page
import Mathlib.Data.List.Infix

/-!
Failures over the life of a session. In every turn, whatever is asked and
whatever the database does, an error that the library raises is met once: the
turn fails with it and names the statement that was run, it is logged once, and
only cursors are closed after it. Where the connection refuses to quote some
texts the same holds, with the mark of quoting in the place of the statement.
Until then the documents of an answer come one by one, as the rows say.
-/

namespace DocStore

open Holder

/-- The record of a message. -/
def LogCall.record (call : LogCall) : LogRecord :=
  ⟨call.level, call.message, call.logger.name, call.logger.context, call.metadata⟩

namespace LogCall

variable {j : Journal} {call : LogCall} {calls : List LogCall}

/-- A journal without bounds keeps the record of every message that its logger accepts. -/
theorem records_into (hcapacity : j.capacity = none) : (into j call).capacity = none ∧
    (into j call).records =
      j.records ++ if call.logger.accepts call.level then [call.record] else [] := by
  obtain ⟨capacity, records, printed⟩ := j
  obtain rfl : capacity = none := hcapacity
  have hcontext : LogContext.merge? call.logger.context none = call.logger.context := by
    cases call.logger.context <;> rfl
  unfold into Logger.log
  split
  · rw [hcontext, Logger.write]
    split <;> exact ⟨rfl, rfl⟩
  · exact ⟨rfl, (List.append_nil _).symm⟩

end LogCall

/-- A statement that an engine refused, with the words and the code of its error. -/
def Refusal.fault (r : Refusal) (engine : Engine) (sql : Text) : StatementFault :=
  ⟨engine, sql, r.text, r.code⟩

/-- The same turn with a connection that quotes every text. -/
def Turn.fluent (t : Turn) : Turn := { t with script := { t.script with quoting := none } }

namespace Session

/-- What a turn did to the library. -/
def did (session : Session) (t : Turn) : List Event :=
  (session.after t).store.trace.drop session.store.trace.length

variable {session : Session} {w : Library} {t : Turn}

/-- The run of a turn beside the library. -/
theorem exists_surfacing (h : Tracks session w) (t : Turn) : ∃ calls,
    Surfacing (w.follow t.script) (session.turnTo t.script) (fun _ _ => True) (session.did t) calls
      (t.request.run.outcome (session.turnTo t.script))
      (t.request.run.outcome (session.turnTo t.fluent.script)) := by
  have htracks : Tracks (session.turnTo t.script) (w.follow t.script) :=
    ⟨Store.follow_backs h.backs t.script, h.linked⟩
  obtain ⟨es, calls, hrun⟩ := (t.request.candid_run.surfaces _) _ htracks
  have htrace : (session.after t).store.trace = session.store.trace ++ es := hrun.acts.trace
  have hes : session.did t = es := by rw [did, htrace, List.drop_left]
  rw [hes]
  exact ⟨calls, hrun⟩

/-- What one turn preserves. -/
theorem tracks_after (h : Tracks session w) (t : Turn) :
    Tracks (session.after t) ((w.follow t.script).afterAll (session.did t)) := by
  obtain ⟨calls, hrun⟩ := exists_surfacing h t
  exact hrun.tracks

/-- A session through which nothing is read yet. -/
theorem tracks_library (h : session.handles = []) : Tracks session session.store.library := by
  refine ⟨session.store.library_backs, fun x hx => ?_⟩
  rw [h] at hx
  cases hx

/-- A session with an open store, of whose collection the documents will be read one by one. -/
def reading : Session := ⟨Store.ready .pgsql, []⟩

/-- The error of a connection that is lost. -/
def lost : Refusal := ⟨"OperationalError", "gone", .str "57P01", true⟩

end Session

end DocStore
