import DocStore.Proofs.Store.Query

/-!
Courses. A course says what is read of rows: the documents, in order, and what
stops the reading. One row is one step along what is ahead of a query, and so
the documents of a query come as its course says, all of them at once or one
after another, and no row is fetched after the one that completes its page.
-/

namespace DocStore

/-- What is read of rows: the documents that come, and what stops the reading before its end. -/
structure Course where
  documents : List Value := []
  stop : Option Misuse := none

namespace Course

/-- A document, and then a course. -/
def cons (v : Value) (c : Course) : Course := { c with documents := v :: c.documents }

/-- A course without so many documents at its beginning. -/
def drop (n : Nat) (c : Course) : Course := { c with documents := c.documents.drop n }

/-- So many documents at the beginning of a course, which ends with the last of them. -/
def take (limit : Option Nat) (c : Course) : Course :=
  match limit with
  | none => c
  | some n =>
    { documents := c.documents.take n, stop := if n ≤ c.documents.length then none else c.stop }

/-- Documents changed one by one, up to one that cannot be changed. -/
def changed (f : Value → Except Misuse Value) (stop : Option Misuse) : List Value → Course
  | [] => { stop := stop }
  | v :: vs =>
    match f v with
    | .error fault => { stop := some fault }
    | .ok w => (changed f stop vs).cons w

/-- A course with every document changed. -/
def mapM (f : Value → Except Misuse Value) (c : Course) : Course := changed f c.stop c.documents

/-- All documents of a course, unless something stops it. -/
def result (c : Course) : Except Fault (List Value) :=
  match c.stop with
  | none => .ok c.documents
  | some fault => .error (.misuse fault)

/-- The first document of a course, or null at its end. -/
def first (c : Course) : Except Fault Value :=
  match c.documents, c.stop with
  | v :: _, _ => .ok v
  | [], none => .ok .null
  | [], some fault => .error (.misuse fault)

/-- The course of rows each of which comes to a document, or to none. -/
def ofRows (examine : Row → Except Misuse (Option Value)) : List Row → Course
  | [] => {}
  | row :: rows =>
    match examine row with
    | .error fault => { stop := some fault }
    | .ok none => ofRows examine rows
    | .ok (some v) => (ofRows examine rows).cons v

theorem take_cons (n : Nat) (v : Value) (c : Course) :
    (c.cons v).take (some (n + 1)) = (c.take (some n)).cons v := by
  simp [take, cons]

theorem mapM_cons (f : Value → Except Misuse Value) (v : Value) (c : Course) :
    (c.cons v).mapM f =
      match f v with
      | .error fault => { stop := some fault }
      | .ok w => (c.mapM f).cons w := rfl

end Course

namespace Query

/-- What is ahead of a query when so many documents are still left out and given. -/
def ahead (q : Query) (skip : Nat) (left : Option Nat) (rows : List Row) : Course :=
  (((Course.ofRows q.examine rows).drop skip).take left).mapM q.project

/-- What one row comes to, when so many documents are still left out: a document, or nothing, and
how many are left out after it. -/
def taken (q : Query) (skip : Nat) (row : Row) : Except Misuse (Option Value × Nat) :=
  match q.examine row with
  | .error fault => .error fault
  | .ok none => .ok (none, skip)
  | .ok (some document) =>
    match skip with
    | n + 1 => .ok (none, n)
    | 0 =>
      match q.project document with
      | .error fault => .error fault
      | .ok v => .ok (some v, 0)

variable {q : Query} {skip : Nat} {left : Option Nat} {row : Row} {rows : List Row}

theorem ahead_full : q.ahead skip (some 0) rows = {} := by
  simp [ahead, Course.take, Course.mapM, Course.changed]

theorem ahead_nil : q.ahead skip left [] = {} := by
  cases left <;> simp [ahead, Course.ofRows, Course.drop, Course.take, Course.mapM, Course.changed]

/-- One row is one step along what is ahead. -/
theorem ahead_cons (hleft : left ≠ some 0) :
    q.ahead skip left (row :: rows) =
      match q.taken skip row with
      | .error fault => { stop := some fault }
      | .ok (none, skip) => q.ahead skip left rows
      | .ok (some v, skip) => (q.ahead skip (left.map (· - 1)) rows).cons v := by
  -- A document uses up one of those that are left; where none is left, nothing is ahead.
  have hfirst (v : Value) (c : Course) : (c.cons v).take left = (c.take (left.map (· - 1))).cons v := by
    cases left with
    | none => rfl
    | some n =>
      cases n with
      | zero => exact absurd rfl hleft
      | succ n => exact c.take_cons n v
  unfold ahead taken
  rw [Course.ofRows]
  cases q.examine row with
  | error fault =>
    cases left with
    | none => simp [Course.drop, Course.take, Course.mapM, Course.changed]
    | some n =>
      cases n with
      | zero => exact absurd rfl hleft
      | succ n => simp [Course.drop, Course.take, Course.mapM, Course.changed]
  | ok found =>
    cases found with
    | none => rfl
    | some v =>
      cases skip with
      | succ n => rfl
      | zero =>
        show (((Course.ofRows q.examine rows).cons v).take left).mapM q.project = _
        rw [hfirst, Course.mapM_cons]
        dsimp only
        cases q.project v with
        | error fault => rfl
        | ok w => rfl

end Query

/-! ### Reading rows -/

namespace Course

theorem eq_of_result {c : Course} {vs : List Value} (h : c.result = .ok vs) :
    c.stop = none ∧ c.documents = vs := by
  unfold result at h
  split at h
  next hstop =>
    cases h
    exact ⟨hstop, rfl⟩
  · cases h

theorem exists_stop_of_result {c : Course} {fault : Fault} (h : c.result = .error fault) :
    ∃ stop, c.stop = some stop ∧ fault = .misuse stop := by
  unfold result at h
  split at h
  · cases h
  next stop hstop =>
    cases h
    exact ⟨stop, hstop, rfl⟩

theorem result_cons_of_ok {c : Course} {vs : List Value} (h : c.result = .ok vs) (v : Value) :
    (c.cons v).result = .ok (v :: vs) := by
  obtain ⟨hstop, rfl⟩ := eq_of_result h
  rw [result, cons, hstop]

theorem result_cons_of_error {c : Course} {fault : Fault} (h : c.result = .error fault) (v : Value) :
    (c.cons v).result = .error fault := by
  obtain ⟨stop, hstop, rfl⟩ := exists_stop_of_result h
  rw [result, cons, hstop]

end Course

/-- The next document is the first one of a course, and what comes after it is still ahead. -/
def Course.IsNext (c : Course) (r : Except Fault (Option Value × Documents)) : Prop :=
  match c.documents, c.stop with
  | v :: vs, stop => ∃ d cursor rows, r = .ok (some v, d) ∧ d.reading = .under cursor ⟨rows, none⟩ ∧
    d.query.ahead d.skip d.left rows = ⟨vs, stop⟩
  | [], none => ∃ d, r = .ok (none, d)
  | [], some fault => r = .error (.misuse fault)

namespace Action

variable {s : Store} {q : Query} {cursor skip : Nat} {left : Option Nat} {row : Row}
  {rows : List Row}

/-- A row is fetched before anything else is done with it; one that stops the reading closes the
cursor. -/
theorem ensures_takeRow_bind {β : Type} {f : Option Value × Nat → Action β}
    {P : Except Fault β → Store → Prop} :
    Ensures (takeRow q cursor skip row >>= f) s P ↔
      match q.taken skip row with
      | .error fault => P (.error (.misuse fault))
        { s with trace := s.trace ++ [.fetch cursor true] ++ [.close cursor] }
      | .ok p => Ensures (f p) { s with trace := s.trace ++ [.fetch cursor true] } P := by
  unfold takeRow Query.taken
  cases q.examine row with
  | error fault => exact Iff.rfl
  | ok found =>
    cases found with
    | none => exact Iff.rfl
    | some v =>
      cases skip with
      | succ n => exact Iff.rfl
      | zero =>
        dsimp only
        cases q.project v with
        | error fault => exact Iff.rfl
        | ok w => exact Iff.rfl

/-- Among rows, all documents that are ahead come. -/
theorem ensures_allAmong :
    Ensures (allAmong q cursor none skip left rows) s fun r _ =>
      r = (q.ahead skip left rows).result := by
  induction rows generalizing s skip left with
  | nil =>
    rw [Query.ahead_nil]
    by_cases hleft : left = some 0
    · rw [hleft, allAmong_full]
      rfl
    · rw [allAmong_nil q cursor none skip hleft]
      rfl
  | cons row rows ih =>
    by_cases hleft : left = some 0
    · rw [hleft, allAmong_full, Query.ahead_full]
      rfl
    · rw [allAmong_cons q cursor none skip hleft, Query.ahead_cons hleft, ensures_takeRow_bind]
      cases q.taken skip row with
      | error fault => rfl
      | ok p =>
        obtain ⟨v, n⟩ := p
        cases v with
        | none => exact ih
        | some v =>
          refine Ensures.bind ih ?_ ?_
          · intro vs _ h
            exact (Course.result_cons_of_ok h.symm v).symm
          · intro fault _ h
            exact (Course.result_cons_of_error h.symm v).symm

/-- Among rows, the next document is the first one that is ahead. -/
theorem ensures_nextAmong {d : Documents} (hleft : d.left ≠ some 0) :
    Ensures (nextAmong d cursor none skip rows) s fun r _ =>
      (d.query.ahead skip d.left rows).IsNext r := by
  induction rows generalizing s skip with
  | nil =>
    rw [Query.ahead_nil]
    exact ⟨_, rfl⟩
  | cons row rows ih =>
    unfold nextAmong
    rw [Query.ahead_cons hleft, ensures_takeRow_bind]
    cases d.query.taken skip row with
    | error fault => rfl
    | ok p =>
      obtain ⟨v, n⟩ := p
      cases v with
      | none => exact ih
      | some v => exact ⟨_, _, _, rfl, rfl, rfl⟩

/-- Rows were fetched, no more than so many, and then the cursor was closed. -/
def Fetches (cursor n : Nat) (s s' : Store) : Prop :=
  ∃ k ≤ n, s'.trace = s.trace ++ List.replicate k (.fetch cursor true) ++ [.close cursor]

theorem Fetches.succ {n : Nat} {s' : Store}
    (h : Fetches cursor n { s with trace := s.trace ++ [.fetch cursor true] } s') :
    Fetches cursor (n + 1) s s' := by
  obtain ⟨k, hk, htrace⟩ := h
  refine ⟨k + 1, Nat.succ_le_succ hk, ?_⟩
  rw [htrace, List.replicate_succ]
  simp

/-- Where a row completes the page, no row after it is fetched. -/
theorem ensures_allAmong_complete {n : Nat} {before after : List Row} {v : Value}
    (refusal : Option Refusal) (hstop : (Course.ofRows q.examine before).stop = none)
    (hlength : (Course.ofRows q.examine before).documents.length + 1 = skip + n)
    (hrow : q.examine row = .ok (some v)) :
    Ensures (allAmong q cursor refusal skip (some n) (before ++ row :: after)) s fun _ s' =>
      Fetches cursor (before.length + 1) s s' := by
  -- On the rows before the one that completes the page: how many documents they come to says how
  -- many are still left out or given when it is read.
  induction before generalizing s skip n with
  | nil =>
    by_cases hn : n = 0
    · rw [hn, allAmong_full]
      exact ⟨0, Nat.zero_le _, by rw [List.replicate_zero, List.append_nil]; rfl⟩
    · obtain ⟨rfl, rfl⟩ : skip = 0 ∧ n = 1 := by
        have : 0 + 1 = skip + n := hlength
        omega
      rw [List.nil_append, allAmong_cons q cursor refusal 0 (by simp), ensures_takeRow_bind,
        Query.taken, hrow]
      dsimp only
      cases q.project v with
      | error fault => exact ⟨1, Nat.le_refl 1, rfl⟩
      | ok w =>
        dsimp only
        rw [Option.map_some, allAmong_full]
        exact ⟨1, Nat.le_refl 1, rfl⟩
  | cons r before ih =>
    by_cases hn : n = 0
    · rw [hn, allAmong_full]
      exact ⟨0, Nat.zero_le _, by rw [List.replicate_zero, List.append_nil]; rfl⟩
    · rw [List.cons_append, allAmong_cons q cursor refusal skip (by simpa using hn),
        ensures_takeRow_bind, Query.taken]
      rw [Course.ofRows] at hstop hlength
      cases hr : q.examine r with
      | error fault =>
        rw [hr] at hstop
        cases hstop
      | ok found =>
        rw [hr] at hstop hlength
        cases found with
        | none => exact (ih hstop hlength).mono fun _ _ h => h.succ
        | some u =>
          -- The document of this row is left out or given, so that one less is to come.
          replace hlength : (Course.ofRows q.examine before).documents.length + 1 + 1 = skip + n :=
            hlength
          cases skip with
          | succ m => exact (ih hstop (by omega)).mono fun _ _ h => h.succ
          | zero =>
            dsimp only
            cases q.project u with
            | error fault => exact ⟨1, by simp, rfl⟩
            | ok w =>
              have hshort : (Course.ofRows q.examine before).documents.length + 1 = 0 + (n - 1) := by
                omega
              exact Ensures.bind (ih hstop hshort) (fun _ _ h => h.succ) fun _ _ h => h.succ

end Action

namespace Documents

open DocStore.Action

/-- The documents come one by one, whatever is done between them, up to their end or to what stops
the reading. -/
def Gives (stop : Option Misuse) : List Value → Documents → Store → Prop
  | [], d, s =>
    match stop with
    | none => ∃ d', (d.next.outcome s).1 = .ok (none, d')
    | some fault => (d.next.outcome s).1 = .error (.misuse fault)
  | v :: vs, d, s => ∃ d', (d.next.outcome s).1 = .ok (some v, d') ∧ ∀ s', Gives stop vs d' s'

variable {s : Store} {d : Documents} {cursor : Nat} {rows : List Row}

theorem opened_under {reply : Reply} (hreading : d.reading = .under cursor reply) :
    d.opened = pure d := by
  unfold opened
  rw [hreading]

/-- What comes next once the query was sent. -/
theorem ensures_nextOpened (hreading : d.reading = .under cursor ⟨rows, none⟩) :
    Ensures (match d.reading with
      | .under cursor reply =>
        if d.left = some 0 then do
          record (.close cursor)
          return (none, { d with reading := .finished })
        else nextAmong d cursor reply.refusal d.skip reply.rows
      | _ => return (none, d)) s fun r _ => (d.query.ahead d.skip d.left rows).IsNext r := by
  rw [hreading]
  dsimp only
  by_cases hleft : d.left = some 0
  · rw [if_pos hleft, hleft, Query.ahead_full]
    exact ⟨_, rfl⟩
  · rw [if_neg hleft]
    exact ensures_nextAmong hleft

theorem ensures_next (hreading : d.reading = .under cursor ⟨rows, none⟩) :
    Ensures d.next s fun r _ => (d.query.ahead d.skip d.left rows).IsNext r := by
  unfold next
  rw [opened_under hreading, pure_bind]
  exact ensures_nextOpened hreading

/-- What is ahead is given one by one. -/
theorem gives_of_isNext {c : Course} (h : c.IsNext (d.next.outcome s).1) :
    Gives c.stop c.documents d s := by
  -- What is ahead after a document does not depend on the store, which may change in between.
  obtain ⟨vs, stop⟩ := c
  induction vs generalizing d s with
  | nil => cases stop <;> exact h
  | cons v vs ih =>
    obtain ⟨d', cursor, rows, hnext, hreading, hahead⟩ := h
    refine ⟨d', hnext, fun s' => ih ?_⟩
    rw [← hahead]
    exact ensures_next hreading

theorem toList_under {reply : Reply} (hreading : d.reading = .under cursor reply) :
    d.toList = allAmong d.query cursor reply.refusal d.skip d.left reply.rows := by
  unfold toList
  rw [opened_under hreading, pure_bind, hreading]

theorem allAmong_eq_next {refusal : Option Refusal} (skip : Nat) (hleft : d.left ≠ some 0) :
    allAmong d.query cursor refusal skip d.left rows = (do
      match ← nextAmong d cursor refusal skip rows with
      | (none, _) => return []
      | (some v, d) => return v :: (← d.toList)) := by
  induction rows generalizing skip with
  | nil =>
    rw [allAmong_nil _ _ _ _ hleft, nextAmong]
    simp only [bind_assoc, pure_bind]
  | cons row rows ih =>
    rw [allAmong_cons _ _ _ _ hleft, nextAmong, bind_assoc]
    refine bind_congr fun p => ?_
    obtain ⟨v, n⟩ := p
    cases v with
    | none => exact ih n
    | some v =>
      dsimp only
      rw [pure_bind]
      dsimp only
      rw [toList_under rfl]

/-- All documents are read by reading one after another. -/
theorem toList_eq_next (d : Documents) :
    d.toList = (do
      match ← d.next with
      | (none, _) => return []
      | (some v, d) => return v :: (← d.toList)) := by
  -- Both begin by sending the query, and differ only in what they do with the answer.
  unfold next
  rw [toList, bind_assoc]
  refine bind_congr fun d' => ?_
  cases hreading : d'.reading with
  | under cursor reply =>
    dsimp only
    by_cases hleft : d'.left = some 0
    · rw [if_pos hleft, hleft, allAmong_full]
      simp only [bind_assoc, pure_bind]
    · rw [if_neg hleft]
      exact allAmong_eq_next d'.skip hleft
  | waiting => rfl
  | finished => rfl

/-! ### Queries that are answered -/

section

variable {q : Query} (hworks : s.Works) (hserves : s.Serves q.collection)
  (hselect : ("SELECT" : Text) <+: q.statement.text s.engine)
  (hreply : (Store.nextReply s.script).1 = ⟨rows, none⟩)

include hworks hserves hselect hreply

theorem ensures_answered :
    Ensures q.documents.opened s fun r s' => ∃ cursor es,
      r = .ok { q.documents with reading := .under cursor ⟨rows, none⟩ } ∧
        s.Leads (es ++ [.send cursor q.statement]) s' ∧ ∀ t ∈ sentTexts s.engine es, IsCreate t := by
  rw [← hreply]
  exact ensures_opened (d := q.documents) hworks hserves rfl (isQuery_of_select hselect)

theorem ensures_toList :
    Ensures q.documents.toList s fun r _ => r = (q.ahead q.skip q.limit rows).result := by
  refine (ensures_answered hworks hserves hselect hreply).bind ?_ ?_
  · rintro d s₁ ⟨cursor, es, ⟨⟩, -, -⟩
    exact ensures_allAmong
  · rintro fault s₁ ⟨cursor, es, h, -, -⟩
    cases h

/-- Where a row completes the page, the rows up to it are fetched at most, and nothing else is done with
the answer but to leave it. -/
theorem ensures_toList_complete {n : Nat} {before after : List Row} {row : Row} {v : Value}
    (hrows : rows = before ++ row :: after) (hlimit : q.limit = some n)
    (hstop : (Course.ofRows q.examine before).stop = none)
    (hlength : (Course.ofRows q.examine before).documents.length + 1 = q.skip + n)
    (hrow : q.examine row = .ok (some v)) :
    Ensures q.documents.toList s fun _ s' => ∃ es cursor k, k ≤ before.length + 1 ∧
      (∀ t ∈ sentTexts s.engine es, IsCreate t) ∧
        s'.trace = s.trace ++ es ++
          .send cursor q.statement :: List.replicate k (.fetch cursor true) ++ [.close cursor] := by
  refine (ensures_answered hworks hserves hselect hreply).bind ?_ ?_
  · rintro d s₁ ⟨cursor, es, ⟨⟩, hleads, hes⟩
    have hfetches : Ensures (allAmong q cursor none q.skip q.limit rows) s₁ fun _ s' =>
        Fetches cursor (before.length + 1) s₁ s' := by
      rw [hrows, hlimit]
      exact ensures_allAmong_complete none hstop hlength hrow
    refine hfetches.mono ?_
    rintro r s' ⟨k, hk, htrace⟩
    refine ⟨es, cursor, k, hk, hes, ?_⟩
    rw [htrace, hleads.trace]
    simp
  · rintro fault s₁ ⟨cursor, es, h, -, -⟩
    cases h

theorem ensures_firstNext :
    Ensures q.documents.next s fun r _ => (q.ahead q.skip q.limit rows).IsNext r := by
  refine (ensures_answered hworks hserves hselect hreply).bind ?_ ?_
  · rintro d s₁ ⟨cursor, es, ⟨⟩, -, -⟩
    exact ensures_nextOpened (d := { q.documents with reading := .under cursor ⟨rows, none⟩ }) rfl
  · rintro fault s₁ ⟨cursor, es, h, -, -⟩
    cases h

theorem ensures_first :
    Ensures q.documents.first s fun r _ => r = (q.ahead q.skip q.limit rows).first := by
  have hnext := ensures_firstNext hworks hserves hselect hreply
  generalize q.ahead q.skip q.limit rows = c at hnext ⊢
  obtain ⟨vs, stop⟩ := c
  refine hnext.bind ?_ ?_
  · rintro ⟨v, d⟩ s₁ h
    cases vs with
    | nil =>
      cases stop with
      | none =>
        obtain ⟨d', ⟨⟩⟩ := h
        rfl
      | some fault => cases h
    | cons v vs =>
      obtain ⟨d', cursor, rows, ⟨⟩, hreading, -⟩ := h
      dsimp only
      unfold abandon
      rw [hreading]
      rfl
  · rintro fault s₁ h
    cases vs with
    | nil =>
      cases stop with
      | none =>
        obtain ⟨d', h⟩ := h
        cases h
      | some fault =>
        cases h
        rfl
    | cons v vs =>
      obtain ⟨d', cursor, rows, h, -⟩ := h
      cases h

end

end Documents

end DocStore
