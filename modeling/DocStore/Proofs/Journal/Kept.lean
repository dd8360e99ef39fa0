import DocStore.Journal.Basic
import DocStore.Proofs.Json.Plain
import Mathlib.Data.List.DropRight

/-!
What a journal keeps. Loggers that come from one another write to one journal
and differ in nothing but their contexts, so that after any calls on any of them
the journal holds the records of the calls that were accepted since it was last
cleared, the latest ones when it is bounded.
-/

namespace DocStore

namespace Journal

/-- The records that are kept of some: the last ones, or all without a capacity. -/
def kept (capacity : Option Nat) (rs : List LogRecord) : List LogRecord :=
  match capacity with
  | none => rs
  | some n => rs.rtake n

theorem kept_nil (limit : Option Nat) : kept limit [] = [] := by
  cases limit with
  | none => rfl
  | some n => exact List.rtake_nil n

theorem latest_concat {α : Type} (n : Nat) (as : List α) (a : α) :
    latest n (as.rtake n ++ [a]) = (as ++ [a]).rtake n := by
  have hdrop : as.rtake n ++ [a] = (as ++ [a]).drop (as.length - n) :=
    (List.drop_append_of_le_length (Nat.sub_le _ _)).symm
  rw [hdrop, latest, List.rtake, List.drop_drop]
  congr 1
  simp only [List.length_drop, List.length_append, List.length_singleton]
  omega

/-- A journal that keeps the last of some records keeps the last of them and one more. -/
theorem records_add {j : Journal} {rs : List LogRecord} (h : j.records = kept j.capacity rs)
    (r : LogRecord) : (j.add r).records = kept j.capacity (rs ++ [r]) := by
  rw [add, h]
  cases j.capacity with
  | none => rfl
  | some n => exact latest_concat n rs r

end Journal

theorem Level.ofName?_name (level : Level) : ofName? level.name = some level := by
  cases level <;> decide

namespace LogRecord

/-- Of a text and an object a record can always be made. -/
theorem ofValues_ok (level : Level) (message logger : Text) (metadata : Members)
    (context : Option LogContext) :
    ofValues (.str level.name) (.str message) (.str logger) (.object metadata) context =
      .ok ⟨level, message, logger, context, metadata⟩ := by
  have hlevel : levelField ["level"] (.str level.name) = .ok level := by
    rw [levelField, Level.ofName?_name]
  rw [ofValues, hlevel]
  rfl

end LogRecord

namespace Logger

/-- The logger that a path of contexts leads to. -/
def follow (root : Logger) (path : List LogContext) : Logger := path.foldl within root

/-- A message with what comes with it, and the path to the logger that logs it. -/
structure Entry where
  path : List LogContext
  level : Level
  message : Text
  context : Option LogContext
  metadata : Option Members

/-- What is done with a journal from outside. -/
inductive Call where
  | log (entry : Entry)
  | clear

namespace Call

/-- The journal after a call. -/
def run (root : Logger) (j : Journal) : Call → Checked Journal
  | .log e => (root.follow e.path).logValues e.level (.str e.message) e.context
      ((e.metadata.map .object).getD .null) j
  | .clear => .ok j.clear

/-- Whether a call logs a message. -/
def isLog : Call → Bool
  | .log _ => true
  | .clear => false

/-- The record that is to be kept of a call. -/
def record? (root : Logger) : Call → Option LogRecord
  | .log e =>
    if root.least.weight ≤ e.level.weight then
      some {
        level := e.level
        message := e.message
        logger := root.name
        context := LogContext.merge?
          (e.path.foldl (fun c d => LogContext.merge? c (some d)) root.context) e.context
        metadata := e.metadata.getD [] }
    else none
  | .clear => none

/-- The records that are to be kept of calls: those since the journal was last cleared. -/
def records (root : Logger) (calls : List Call) : List LogRecord :=
  (calls.rtakeWhile isLog).filterMap (record? root)

end Call

variable {root : Logger} {j : Journal} {call : Call} {calls : List Call}

/-- Loggers that come from one another differ in nothing but their contexts. -/
theorem follow_eq (root : Logger) (path : List LogContext) : root.follow path =
    { root with context :=
        path.foldl (fun c d => LogContext.merge? c (some d)) root.context } := by
  induction path generalizing root with
  | nil => rfl
  | cons d path ih => exact ih (root.within d)

theorem write_eq (l : Logger) (r : LogRecord) (j : Journal) : l.write r j =
    { j.add r with printed := if l.prints then j.printed ++ [r] else j.printed } := by
  rw [write]
  cases l.prints <;> rfl

/-- To log a text with an object, or with nothing, is to log. -/
theorem logValues_eq (l : Logger) (level : Level) (message : Text) (context : Option LogContext)
    (metadata : Option Members) (j : Journal) :
    l.logValues level (.str message) context ((metadata.map .object).getD .null) j =
      .ok (l.log level message context (metadata.getD []) j) := by
  rw [logValues, log]
  cases l.accepts level with
  | false => rfl
  | true =>
    have hmetadata : (if ((metadata.map Value.object).getD .null).isTruthy then
        (metadata.map Value.object).getD .null else .object []) = .object (metadata.getD []) := by
      rcases metadata with _ | _ | ⟨m, ms⟩ <;> rfl
    dsimp only
    rw [hmetadata, LogRecord.ofValues_ok]
    rfl

/-- A call adds the record that is to be kept of it, or clears the journal. -/
theorem run_log (root : Logger) (j : Journal) (e : Entry) : (Call.log e).run root j =
    .ok ((((Call.log e).record? root).map (root.write · j)).getD j) := by
  rw [Call.run, logValues_eq, follow_eq, log, Call.record?]
  by_cases haccepts : root.least.weight ≤ e.level.weight
  · rw [if_pos haccepts, accepts, decide_eq_true haccepts]
    rfl
  · rw [if_neg haccepts, accepts, decide_eq_false haccepts]
    rfl

/-- A journal keeps what it should of the calls on the loggers that come from a root. -/
structure Keeps (root : Logger) (limit : Option Nat) (calls : List Call) (j : Journal) : Prop where
  capacity : j.capacity = limit
  records : j.records = Journal.kept limit (Call.records root calls)
  printed : j.printed = if root.prints then calls.filterMap (Call.record? root) else []

variable {limit : Option Nat}

theorem Keeps.clear (h : Keeps root limit calls j) :
    Keeps root limit (calls ++ [.clear]) j.clear where
  capacity := h.capacity
  records := by
    have hnone : Call.records root (calls ++ [.clear]) = [] := by
      rw [Call.records, List.rtakeWhile_concat_neg _ _ _ Bool.false_ne_true]
      rfl
    rw [hnone, Journal.kept_nil]
    rfl
  printed := by
    rw [List.filterMap_append]
    exact h.printed.trans (by rw [List.filterMap_cons_none rfl, List.filterMap_nil, List.append_nil])

theorem records_log (root : Logger) (calls : List Call) (e : Entry) :
    Call.records root (calls ++ [.log e]) =
      Call.records root calls ++ ((Call.log e).record? root).toList := by
  rw [Call.records, List.rtakeWhile_concat_pos _ _ _ rfl, List.filterMap_append, Call.records]
  cases hrecord : (Call.log e).record? root with
  | none => rw [List.filterMap_cons_none hrecord]; rfl
  | some r => rw [List.filterMap_cons_some hrecord]; rfl

theorem Keeps.log (h : Keeps root limit calls j) (e : Entry) :
    Keeps root limit (calls ++ [.log e])
      ((((Call.log e).record? root).map (root.write · j)).getD j) := by
  cases hrecord : (Call.log e).record? root with
  | none =>
    refine ⟨h.capacity, ?_, ?_⟩
    · rw [records_log, hrecord]
      exact h.records.trans (by rw [Option.toList_none, List.append_nil])
    · rw [List.filterMap_append, List.filterMap_cons_none hrecord, List.filterMap_nil,
        List.append_nil]
      exact h.printed
  | some r =>
    rw [Option.map_some, Option.getD_some, write_eq]
    refine ⟨h.capacity, ?_, ?_⟩
    · rw [records_log, hrecord, ← h.capacity]
      exact Journal.records_add (h.capacity ▸ h.records) r
    · rw [List.filterMap_append, List.filterMap_cons_some hrecord, List.filterMap_nil]
      dsimp only
      rw [h.printed]
      cases root.prints <;> rfl

/-- A call keeps the journal so. -/
theorem Keeps.run (h : Keeps root limit calls j) (call : Call) :
    ∃ j', call.run root j = .ok j' ∧ Keeps root limit (calls ++ [call]) j' := by
  cases call with
  | log e => exact ⟨_, run_log root j e, h.log e⟩
  | clear => exact ⟨_, rfl, h.clear⟩

end Logger

end DocStore
