import DocStore.Proofs.Store.Compose
import DocStore.Proofs.Store.Search
import DocStore.Proofs.Store.Surface

/-!
Reading and sending apart. Some connections cannot send a statement while the
rows of another one are still coming. What is done to the library is told here
together with the result of an action; the answers that a verb reads are read
one after another, each up to where its cursor is closed, whether its rows end,
a page is full, a row cannot be read or the database fails in between.
-/

namespace DocStore

open Holder

/-! ### Events -/

/-- The cursor from which an event reads rows. -/
def Event.read? : Event → Option Nat
  | .fetch cursor _ | .fetchAll cursor => some cursor
  | _ => none

/-- Rows are read from a cursor, and nothing else is done. -/
def ReadsOn (cursor : Nat) (es : List Event) : Prop := ∀ e ∈ es, e.read? = some cursor

/-- A cursor is closed by some events, and nothing is done before but to read more rows from it. -/
def ClosesFirst (cursor : Nat) (es : List Event) : Prop :=
  ∃ before after, es = before ++ .close cursor :: after ∧ ReadsOn cursor before

/-- Whenever rows are read from a cursor, it is closed before anything else is done: no statement is sent,
nor a row read from another cursor. -/
def Serial : List Event → Prop
  | [] => True
  | e :: es => (∀ cursor, e.read? = some cursor → ClosesFirst cursor es) ∧ Serial es

variable {cursor : Nat} {e : Event} {es es' : List Event}

theorem ClosesFirst.append (h : ClosesFirst cursor es) (es' : List Event) :
    ClosesFirst cursor (es ++ es') := by
  obtain ⟨before, after, rfl, hbefore⟩ := h
  exact ⟨before, after ++ es', by rw [List.append_assoc, List.cons_append], hbefore⟩

theorem serial_append (h : Serial es) (h' : Serial es') : Serial (es ++ es') := by
  induction es with
  | nil => exact h'
  | cons e es ih => exact ⟨fun cursor he => (h.1 cursor he).append es', ih h.2⟩

theorem serial_cons_of_read?_eq_none (he : e.read? = none) (h : Serial es) : Serial (e :: es) := by
  refine ⟨fun cursor hread => ?_, h⟩
  rw [he] at hread
  cases hread

theorem serial_singleton (he : e.read? = none) : Serial [e] := serial_cons_of_read?_eq_none he trivial

/-- Rows are read from a cursor, which is closed after them. -/
def ReadsUp (cursor : Nat) (es : List Event) : Prop :=
  ∃ reads, ReadsOn cursor reads ∧ es = reads ++ [.close cursor]

theorem readsUp_close (cursor : Nat) : ReadsUp cursor [.close cursor] := ⟨[], nofun, rfl⟩

theorem ReadsUp.cons (he : e.read? = some cursor) (h : ReadsUp cursor es) : ReadsUp cursor (e :: es) := by
  obtain ⟨reads, hreads, rfl⟩ := h
  exact ⟨e :: reads, List.forall_mem_cons.mpr ⟨he, hreads⟩, rfl⟩

theorem ReadsOn.append (h : ReadsOn cursor es) (h' : ReadsOn cursor es') : ReadsOn cursor (es ++ es') :=
  List.forall_mem_append.mpr ⟨h, h'⟩

theorem ReadsOn.append_up (h : ReadsOn cursor es) (h' : ReadsUp cursor es') :
    ReadsUp cursor (es ++ es') := by
  obtain ⟨reads, hreads, rfl⟩ := h'
  exact ⟨es ++ reads, h.append hreads, (List.append_assoc ..).symm⟩

theorem ReadsUp.serial (h : ReadsUp cursor es) : Serial es := by
  obtain ⟨reads, hreads, rfl⟩ := h
  induction reads with
  | nil => exact serial_singleton rfl
  | cons e reads ih =>
    obtain ⟨he, hreads⟩ := List.forall_mem_cons.mp hreads
    refine ⟨fun other hother => ?_, ih hreads⟩
    cases he.symm.trans hother
    exact ⟨reads, [], rfl, hreads⟩

/-! ### What is done -/

variable {σ α β : Type} [Holder σ]

/-- What an action does to the library, beside its result and the holder after it, meets a condition. -/
def DoesFrom (P : Except Fault α → σ → List Event → Prop) (a : Holding σ α) (x : σ) : Prop :=
  ∃ es, (store (Holding.outcome a x).2).trace = (store x).trace ++ es ∧
    P (Holding.outcome a x).1 (Holding.outcome a x).2 es

/-- What an action does to the library from wherever, beside its result, meets a condition. -/
structure Does (P : Except Fault α → List Event → Prop) (a : Holding σ α) : Prop where
  does : ∀ x, DoesFrom (fun r _ es => P r es) a x

/-- An action reads and sends apart. -/
abbrev Apart (a : Holding σ α) : Prop := Does (fun _ es => Serial es) a

namespace DoesFrom

variable {a : Holding σ α} {f : α → Holding σ β} {x x' : σ} {P P' : Except Fault α → σ → List Event → Prop}
  {Q : Except Fault β → σ → List Event → Prop}

/-- An action that does nothing to the library. -/
theorem nothing {r : Except Fault α} (hrun : Holding.outcome a x = (r, x'))
    (htrace : (store x').trace = (store x).trace) (h : P r x' []) : DoesFrom P a x := by
  unfold DoesFrom
  rw [hrun]
  exact ⟨[], htrace.trans (List.append_nil _).symm, h⟩

theorem mono (ha : DoesFrom P a x) (h : ∀ r x' es, P r x' es → P' r x' es) : DoesFrom P' a x := by
  obtain ⟨es, htrace, hP⟩ := ha
  exact ⟨es, htrace, h _ _ _ hP⟩

/-- What two actions do is done one after the other; where the first one fails, only what it does. -/
theorem bind (ha : DoesFrom P a x)
    (hok : ∀ y x' es, P (.ok y) x' es → DoesFrom (fun r x'' es' => Q r x'' (es ++ es')) (f y) x')
    (herror : ∀ fault x' es, P (.error fault) x' es → Q (.error fault) x' es) :
    DoesFrom Q (a >>= f) x := by
  obtain ⟨es, htrace, hP⟩ := ha
  unfold DoesFrom
  rcases hrun : Holding.outcome a x with ⟨r, x'⟩
  rw [hrun] at htrace hP
  cases r with
  | ok y =>
    obtain ⟨es', htrace', hQ⟩ := hok y x' es hP
    rw [Holding.outcome_bind_ok hrun]
    exact ⟨es ++ es', by rw [htrace', htrace, List.append_assoc], hQ⟩
  | error fault =>
    rw [Holding.outcome_bind_error hrun]
    exact ⟨es, htrace, herror fault x' es hP⟩

/-- What is done after an action that succeeds and does nothing to the library. -/
theorem after {y : α} (hrun : Holding.outcome a x = (.ok y, x'))
    (htrace : (store x').trace = (store x).trace) (hf : DoesFrom Q (f y) x') :
    DoesFrom Q (a >>= f) x := by
  unfold DoesFrom
  rw [Holding.outcome_bind_ok hrun, ← htrace]
  exact hf

end DoesFrom

namespace Does

variable {a : Holding σ α} {f : α → Holding σ β} {P P' : Except Fault α → List Event → Prop}
  {Q : Except Fault β → List Event → Prop}

/-- An action that does nothing to the library. -/
theorem nothing (h : ∀ x, (store (Holding.outcome a x).2).trace = (store x).trace ∧
    P (Holding.outcome a x).1 []) : Does P a := ⟨fun x => .nothing rfl (h x).1 (h x).2⟩

theorem pure {y : α} (h : P (.ok y) []) : Does P (Pure.pure y : Holding σ α) := nothing fun _ => ⟨rfl, h⟩

theorem throw {fault : Fault} (h : P (.error fault) []) : Does P (throw fault : Holding σ α) :=
  nothing fun _ => ⟨rfl, h⟩

theorem mono (ha : Does P a) (h : ∀ r es, P r es → P' r es) : Does P' a :=
  ⟨fun x => (ha.does x).mono fun r _ es => h r es⟩

theorem bind (ha : Does P a)
    (hok : ∀ y es, P (.ok y) es → Does (fun r es' => Q r (es ++ es')) (f y))
    (herror : ∀ fault es, P (.error fault) es → Q (.error fault) es) : Does Q (a >>= f) :=
  ⟨fun x => (ha.does x).bind (fun y x' es h => (hok y es h).does x') fun fault _ es => herror fault es⟩

theorem get_bind {f : σ → Holding σ β} (hf : ∀ x, Does Q (f x)) : Does Q (get >>= f) :=
  ⟨fun x => (hf x).does x⟩

end Does

namespace Apart

variable {a : Holding σ α} {f : α → Holding σ β}

theorem pure (y : α) : Apart (Pure.pure y : Holding σ α) := Does.pure trivial

theorem throw (fault : Fault) : Apart (throw fault : Holding σ α) := Does.throw trivial

theorem bind (ha : Apart a) (hf : ∀ y, Apart (f y)) : Apart (a >>= f) :=
  Does.bind ha (fun y _ h => (hf y).mono fun _ _ h' => serial_append h h') fun _ _ h => h

theorem get_bind {f : σ → Holding σ β} (hf : ∀ x, Apart (f x)) : Apart (get >>= f) :=
  Does.get_bind hf

end Apart

namespace Action

/-! ### Statements and rows -/

theorem does_record_bind {e : Event} {f : Unit → Action β} {Q : Except Fault β → List Event → Prop}
    (hf : Does (fun r es => Q r (e :: es)) (f ())) : Does Q (record e >>= f) := by
  refine ⟨fun s => ?_⟩
  obtain ⟨es, htrace, hQ⟩ := hf.does { s with trace := s.trace ++ [e] }
  exact ⟨e :: es, htrace.trans (List.append_assoc ..), hQ⟩

theorem apart_record {e : Event} (he : e.read? = none) : Apart (record e) :=
  ⟨fun _ => ⟨[e], rfl, serial_singleton he⟩⟩

/-- Failing does nothing to the library. -/
theorem does_fail {P : Except Fault α → List Event → Prop} {fault : Fault} (h : P (.error fault) []) :
    Does P (fail fault : Action α) := by
  refine .nothing fun s => ?_
  obtain ⟨hresult, hleads⟩ := ensures_fail (α := α) (s := s) fault
  exact ⟨hleads.trace.trans (List.append_nil _), hresult ▸ h⟩

theorem apart_inDialect (f : Dialect → Except Fault α) : Apart (inDialect f) := by
  unfold inDialect
  refine .get_bind fun s => ?_
  split
  · exact .pure _
  · exact does_fail trivial

theorem apart_send (st : Statement) : Apart (send st) := by
  refine ⟨fun s => ?_⟩
  show ∃ es, ((send st).outcome s).2.trace = s.trace ++ es ∧ _
  obtain ⟨-, hs, -⟩ | ⟨-, hsent⟩ := ensures_send (s := s) st
  · exact ⟨[], by rw [hs, List.append_nil], trivial⟩
  · exact ⟨_, hsent.leads.trace, serial_singleton rfl⟩

theorem apart_change (st : Statement) : Apart (change st) := by
  unfold change
  exact (apart_send st).bind fun _ => (apart_record rfl).bind fun _ => .get_bind fun _ => .pure _

theorem does_failReading (cursor : Nat) (st : Statement) (r : Refusal) :
    Does (fun _ es => ReadsUp cursor es) (failReading cursor st r : Action α) :=
  does_record_bind (.get_bind fun _ => does_fail (readsUp_close cursor))

theorem apart_rows (st : Statement) : Apart (rows st) := by
  unfold rows
  refine (apart_send st).bind ?_
  rintro ⟨cursor, reply⟩
  refine Does.mono (P := fun _ es => ReadsUp cursor es) (does_record_bind ?_) fun _ _ h => h.serial
  split
  · exact (does_failReading ..).mono fun _ _ h => h.cons rfl
  · exact does_record_bind (.pure ((readsUp_close cursor).cons rfl))

/-- An action reads and sends apart when its parts do. -/
theorem apart_composes : Composes fun _ a => Apart a where
  pure := .pure
  throw {_ _} _ := .throw _
  bind := .bind
  get_bind _ hf := .get_bind hf
  aside {_ _ _} ha _ haside := .nothing fun s => by
    obtain ⟨_, _, _, _, hs⟩ := haside s
    exact ⟨by rw [show Holding.outcome _ s = _ from ha s, hs]; rfl, trivial⟩
  log _ _ _ := .nothing fun _ => ⟨rfl, trivial⟩
  logOf _ _ _ _ := .nothing fun _ => ⟨rfl, trivial⟩
  inDialect _ := apart_inDialect _
  record {e} he := apart_record (by cases e <;> first | rfl | cases he)
  failConnecting r := by
    unfold failConnecting
    split
    · exact .get_bind fun _ => .bind (.nothing fun _ => ⟨rfl, trivial⟩) fun _ => .throw _
    · exact .throw _
  change := apart_change
  rows := apart_rows

theorem does_endRows (cursor : Nat) (st : Statement) (refusal : Option Refusal) :
    Does (fun _ es => ReadsUp cursor es) (endRows cursor st refusal) := by
  refine does_record_bind ?_
  split
  · exact (does_failReading ..).mono fun _ _ h => h.cons rfl
  · refine ⟨fun s => ⟨[.close cursor], rfl, (readsUp_close cursor).cons rfl⟩⟩

/-- Nothing is done after an answer was read up. -/
theorem does_readsUp_pure {a : Action α} (ha : Does (fun _ es => ReadsUp cursor es) a) (f : α → β) :
    Does (fun _ es => ReadsUp cursor es) (do return f (← a)) :=
  ha.bind (fun _ es h => .pure (by rwa [List.append_nil])) fun _ _ h => h

theorem apart_eachRow (st : Statement) : Apart (eachRow st) := by
  have hread (cursor : Nat) (refusal : Option Refusal) (rows : List Row) :
      Does (fun _ es => ReadsUp cursor es) (readEach cursor st refusal rows) := by
    induction rows with
    | nil => exact does_readsUp_pure (does_endRows ..) fun _ => []
    | cons row rows ih =>
      exact does_record_bind ((does_readsUp_pure ih _).mono fun _ _ h => h.cons rfl)
  exact (apart_send st).bind fun _ => (hread ..).mono fun _ _ h => h.serial

/-! ### Documents -/

/-- Rows are read from a cursor, which is closed where the reading fails. -/
def ReadsFrom (cursor : Nat) : Except Fault α → List Event → Prop
  | .ok _, es => ReadsOn cursor es
  | .error _, es => ReadsUp cursor es

theorem does_takeRow (q : Query) (cursor skip : Nat) (row : Row) :
    Does (ReadsFrom cursor) (takeRow q cursor skip row) := by
  have hfail (fault : Misuse) : Does (fun r es => ReadsFrom cursor r (.fetch cursor true :: es))
      (failAtRow cursor fault : Action (Option Value × Nat)) :=
    does_record_bind (.throw ((readsUp_close cursor).cons rfl))
  have hone : ReadsOn cursor [.fetch cursor true] := List.forall_mem_singleton.mpr rfl
  refine does_record_bind ?_
  split
  · exact hfail _
  · exact .pure hone
  · split
    · exact .pure hone
    · split
      · exact hfail _
      · exact .pure hone

/-- The next document was read from a cursor, which stays open for the rest; where there is none, it is
closed. -/
def ComesFrom (cursor : Nat) : Except Fault (Option Value × Documents) → List Event → Prop
  | .ok (some _, d), es => ReadsOn cursor es ∧ ∃ rest, d.reading = .under cursor rest
  | _, es => ReadsUp cursor es

theorem does_nextAmong (d : Documents) (cursor : Nat) (refusal : Option Refusal) (skip : Nat)
    (rows : List Row) : Does (ComesFrom cursor) (nextAmong d cursor refusal skip rows) := by
  induction rows generalizing skip with
  | nil =>
    refine (does_endRows ..).bind (fun _ es h => .pure ?_) fun _ _ h => h
    rwa [List.append_nil]
  | cons row rows ih =>
    unfold nextAmong
    refine (does_takeRow ..).bind ?_ fun _ _ h => h
    rintro ⟨found, skip'⟩ es hes
    cases found with
    | none =>
      refine (ih skip').mono fun r es' h => ?_
      rcases r with fault | ⟨_ | v, d'⟩
      · exact ReadsOn.append_up hes h
      · exact ReadsOn.append_up hes h
      · exact ⟨ReadsOn.append hes h.1, h.2⟩
    | some v =>
      refine .pure ⟨?_, _, rfl⟩
      rwa [List.append_nil]

theorem does_allAmong (q : Query) (cursor : Nat) (refusal : Option Refusal) (skip : Nat)
    (left : Option Nat) (rows : List Row) :
    Does (fun _ es => ReadsUp cursor es) (allAmong q cursor refusal skip left rows) := by
  have hfull {skip : Nat} (rows : List Row) :
      Does (fun _ es => ReadsUp cursor es) (allAmong q cursor refusal skip (some 0) rows) := by
    rw [allAmong_full]
    exact does_record_bind (.pure (readsUp_close cursor))
  induction rows generalizing skip left with
  | nil =>
    by_cases hleft : left = some 0
    · exact hleft ▸ hfull []
    · rw [allAmong_nil _ _ _ _ hleft]
      exact does_readsUp_pure (does_endRows ..) fun _ => []
  | cons row rows ih =>
    by_cases hleft : left = some 0
    · exact hleft ▸ hfull _
    · rw [allAmong_cons _ _ _ _ hleft]
      refine (does_takeRow ..).bind ?_ fun _ _ h => h
      rintro ⟨found, skip'⟩ es hes
      cases found with
      | none => exact (ih skip' left).mono fun _ _ h => ReadsOn.append_up hes h
      | some v =>
        exact (does_readsUp_pure (ih skip' _) _).mono fun _ _ h => ReadsOn.append_up hes h

end Action

namespace Documents

open DocStore.Action

variable {d : Documents}

/-- Documents that wait are asked for once, when their rows are about to be read. -/
theorem does_opened (hd : d.reading = .waiting) : Does (fun r es => Serial es ∧
    ∀ d', r = .ok d' → ∃ cursor reply, d'.reading = .under cursor reply) d.opened := by
  unfold opened
  rw [hd]
  refine Does.bind (apart_composes.ensureTable _) (fun _ es hes => ?_) fun _ _ h => ⟨h, forall_of_error⟩
  refine Does.bind (apart_send _) ?_ fun _ _ h => ⟨serial_append hes h, forall_of_error⟩
  rintro ⟨cursor, reply⟩ es' hes'
  refine .pure ⟨?_, ?_⟩
  · rw [List.append_nil]
    exact serial_append hes hes'
  · rintro _ ⟨⟩
    exact ⟨cursor, reply, rfl⟩

/-- Where a document came, the cursor of its row is all that is open. -/
def Suspends : Except Fault (Option Value × Documents) → List Event → Prop
  | .ok (some _, d), es =>
    ∃ cursor rest, d.reading = .under cursor rest ∧ Serial (es ++ [.close cursor])
  | _, es => Serial es

theorem does_next (hd : d.reading = .waiting) : Does Suspends d.next := by
  unfold next
  refine (does_opened hd).bind ?_ fun _ _ h => h.1
  rintro d' es ⟨hes, hunder⟩
  obtain ⟨cursor, reply, hreading⟩ := hunder d' rfl
  rw [hreading]
  dsimp only
  split
  · exact does_record_bind (.pure (serial_append hes (serial_singleton rfl)))
  · refine (does_nextAmong ..).mono fun r es' h => ?_
    rcases r with fault | ⟨_ | v, d''⟩
    · exact serial_append hes (ReadsUp.serial h)
    · exact serial_append hes (ReadsUp.serial h)
    · obtain ⟨hreads, rest, hrest⟩ := h
      refine ⟨cursor, rest, hrest, ?_⟩
      rw [List.append_assoc]
      exact serial_append hes (hreads.append_up (readsUp_close cursor)).serial

theorem apart_toList (hd : d.reading = .waiting) : Apart d.toList := by
  unfold toList
  refine (does_opened hd).bind ?_ fun _ _ h => h.1
  rintro d' es ⟨hes, hunder⟩
  obtain ⟨cursor, reply, hreading⟩ := hunder d' rfl
  rw [hreading]
  exact (does_allAmong ..).mono fun _ _ h => serial_append hes h.serial

/-- The rest of the rows after the first document is left unread, and the cursor is closed at once. -/
theorem apart_first (hd : d.reading = .waiting) : Apart d.first := by
  unfold first
  refine (does_next hd).bind ?_ fun _ _ h => h
  rintro ⟨_ | v, d'⟩ es hes
  · refine .pure ?_
    rw [List.append_nil]
    exact hes
  · obtain ⟨cursor, rest, hreading, hclosed⟩ := hes
    dsimp only
    unfold abandon
    rw [hreading]
    exact does_record_bind (.pure hclosed)

end Documents

namespace Action

/-- What verbs read is read up before anything else is sent. -/
theorem apart_composesVerbs : ComposesVerbs fun _ a => Apart a where
  toComposes := apart_composes
  find c filter options :=
    (apart_composes.compile c filter options).bind fun _ => Documents.apart_toList rfl
  findOne c filter _ := (apart_composes.compile c filter _).bind fun _ => Documents.apart_first rfl
  eachRow := apart_eachRow

end Action

end DocStore
