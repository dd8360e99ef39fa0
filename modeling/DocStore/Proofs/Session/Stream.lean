import DocStore.Proofs.Session.Step
import DocStore.Proofs.Store.Course
import DocStore.Proofs.Store.Library

/-!
Documents that are read one by one until the database stops. An answer may end
with an error after its last row. Whoever reads the documents one after another
is given each of those that the rows come to, in order, and only then the error,
whatever is done to the store in between and through whichever iterator they are
read.
-/

namespace DocStore

/-- So many documents are ahead, and then the error that the answer ends with: every row can be read, and
the page is not full before the error. -/
def Documents.Awaits (d : Documents) (vs : List Value) (refusal : Refusal) : Prop :=
  ∃ cursor rows, d.reading = .under cursor ⟨rows, some refusal⟩ ∧
    d.query.ahead d.skip d.left rows = ⟨vs, none⟩ ∧ d.left ≠ some vs.length

namespace Action

variable {s : Store} {cursor skip : Nat} {rows : List Row} {refusal : Refusal} {d : Documents}

/-- Among rows that end with an error, the next document is the first one that is ahead, and the error
comes where none is. -/
theorem ensures_nextAmong_refused (hleft : d.left ≠ some 0) :
    Ensures (nextAmong d cursor (some refusal) skip rows) s fun r _ =>
      match d.query.ahead skip d.left rows with
      | ⟨v :: vs, stop⟩ => ∃ d' rows', r = .ok (some v, d') ∧ d'.query = d.query ∧
          d'.left = d.left.map (· - 1) ∧ d'.reading = .under cursor ⟨rows', some refusal⟩ ∧
          d'.query.ahead d'.skip d'.left rows' = ⟨vs, stop⟩
      | ⟨[], none⟩ => r = .error (s.refused (d.query.statement.text s.engine) refusal)
      | ⟨[], some fault⟩ => r = .error (.misuse fault) := by
  induction rows generalizing s skip with
  | nil =>
    have hend : Ensures (endRows cursor d.query.statement (some refusal)) s fun r _ =>
        r = .error (s.refused (d.query.statement.text s.engine) refusal) :=
      (ensures_fail (α := Unit) _).mono fun _ _ h => h.1
    rw [Query.ahead_nil]
    refine hend.bind ?_ ?_
    · rintro _ _ ⟨⟩
    · rintro _ _ ⟨⟩
      rfl
  | cons row rows ih =>
    unfold nextAmong
    rw [Query.ahead_cons hleft, ensures_takeRow_bind]
    cases d.query.taken skip row with
    | error fault => rfl
    | ok p =>
      obtain ⟨v, n⟩ := p
      cases v with
      | none => exact ih
      | some v => exact ⟨_, _, rfl, rfl, rfl, rfl, rfl⟩

end Action

namespace Documents

open DocStore.Action

variable {s s₁ : Store} {d d₁ : Documents} {vs : List Value} {v : Value} {refusal : Refusal}

/-- Asking for the first document changes neither the query nor the engine. -/
theorem ensures_opened_query : Ensures d.opened s fun r s' =>
    s'.engine = s.engine ∧ ∀ d', r = .ok d' → d'.query = d.query := by
  have hfailed {fault : Fault} (d' : Documents) (h : Except.error fault = .ok d') :
      d'.query = d.query := by cases h
  unfold opened
  split
  · refine ensures_ensureTable.bind ?_ ?_
    · rintro _ s' ⟨⟨es, hs', -⟩, -⟩
      refine (ensures_send _).bind ?_ ?_
      · rintro p s'' (⟨-, -, _, h⟩ | ⟨-, hsent⟩)
        · cases h
        · refine ⟨hsent.leads.engine.trans hs'.engine, ?_⟩
          rintro d' ⟨⟩
          rfl
      · rintro fault s'' (⟨-, rfl, -⟩ | ⟨-, hsent⟩)
        · exact ⟨hs'.engine, hfailed⟩
        · exact ⟨hsent.leads.engine.trans hs'.engine, hfailed⟩
    · rintro fault s' ⟨⟨es, hs', -⟩, -⟩
      exact ⟨hs'.engine, hfailed⟩
  · refine ⟨rfl, ?_⟩
    rintro d' ⟨⟩
    rfl

/-- Where documents are awaited the page is not full yet. -/
theorem Awaits.left_ne (h : d.Awaits vs refusal) : d.left ≠ some 0 := by
  obtain ⟨cursor, rows, -, hahead, hleft⟩ := h
  intro hfull
  rw [hfull, Query.ahead_full] at hahead
  cases hahead
  exact hleft hfull

/-- What comes next once the query was sent. -/
theorem outcome_next (hopened : d.opened.outcome s = (.ok d₁, s₁)) {cursor : Nat} {reply : Reply}
    (hreading : d₁.reading = .under cursor reply) (hleft : d₁.left ≠ some 0) :
    d.next.outcome s = (nextAmong d₁ cursor reply.refusal d₁.skip reply.rows).outcome s₁ := by
  unfold next
  rw [outcome_bind_ok hopened, hreading]
  dsimp only
  rw [if_neg hleft]

theorem query_of_opened (hopened : d.opened.outcome s = (.ok d₁, s₁)) :
    s₁.engine = s.engine ∧ d₁.query = d.query := by
  have hensures : Ensures d.opened s _ := ensures_opened_query
  unfold Ensures at hensures
  rw [hopened] at hensures
  exact ⟨hensures.1, hensures.2 d₁ rfl⟩

/-- The first document that is awaited comes, and the others are awaited then. -/
theorem Awaits.next (hopened : d.opened.outcome s = (.ok d₁, s₁))
    (h : d₁.Awaits (v :: vs) refusal) : ∃ d' s', d.next.outcome s = (.ok (some v, d'), s') ∧
      d'.query = d.query ∧ d'.Awaits vs refusal := by
  have hfull := h.left_ne
  obtain ⟨cursor, rows, hreading, hahead, hlength⟩ := h
  have hnext : Ensures (nextAmong d₁ cursor (some refusal) d₁.skip rows) s₁ _ :=
    ensures_nextAmong_refused hfull
  rw [hahead, Ensures] at hnext
  rcases hrun : (nextAmong d₁ cursor (some refusal) d₁.skip rows).outcome s₁ with ⟨r, s'⟩
  rw [hrun] at hnext
  obtain ⟨d', rows', rfl, hquery, hleft, hreading', hahead'⟩ := hnext
  have hlength' : d'.left ≠ some vs.length := by
    rw [hleft]
    cases hn : d₁.left with
    | none => exact nofun
    | some n =>
      rw [hn] at hfull hlength
      simp only [Option.map_some, ne_eq, Option.some.injEq, List.length_cons] at hfull hlength ⊢
      omega
  refine ⟨d', s', ?_, hquery.trans (query_of_opened hopened).2, cursor, rows', hreading', hahead',
    hlength'⟩
  rw [outcome_next hopened hreading hfull]
  exact hrun

/-- Where no document is awaited any more, the error comes. -/
theorem Awaits.fails (hopened : d.opened.outcome s = (.ok d₁, s₁)) (h : d₁.Awaits [] refusal) :
    (d.next.outcome s).1 = .error (s.refused (d.query.statement.text s.engine) refusal) := by
  obtain ⟨hengine, hquery⟩ := query_of_opened hopened
  have hfull := h.left_ne
  obtain ⟨cursor, rows, hreading, hahead, -⟩ := h
  have hnext : Ensures (nextAmong d₁ cursor (some refusal) d₁.skip rows) s₁ _ :=
    ensures_nextAmong_refused hfull
  rw [hahead, Ensures] at hnext
  rw [hquery, Store.refused_of_engine hengine, hengine] at hnext
  rw [outcome_next hopened hreading hfull]
  exact hnext

end Documents

/-! ### Iterators -/

namespace Session

/-- An iterator reads documents one by one as they come: those of a cursor, or those with relations of
which there are none. -/
inductive Streams (session : Session) : Iterator → Documents → Prop where
  | documents (d : Documents) : session.Streams (.documents d) d
  | related {source : Nat} {r : RelatedDocuments} (d : Documents)
    (holds : session.handles[source]? = some (.related r)) (inactive : r.relations.isActive = false) :
    session.Streams (.related source (.streaming d)) d
  /-- The search has not been compiled yet, but it can be. -/
  | begins {source : Nat} {r : RelatedDocuments} {q : Query}
    (holds : session.handles[source]? = some (.related r)) (inactive : r.relations.isActive = false)
    (fresh : r.cursor.isConsumed = false)
    (compiles : (Action.compile r.cursor.collection r.cursor.filter r.cursor.options).outcome
      session.store = (.ok q, session.store)) :
    session.Streams (.related source .waiting) q.documents

/-- The handles that are no documents with relations stay as they are. -/
def KeepsHandles (session session' : Session) : Prop :=
  ∀ (h : Nat) (x : Handle), session.handles[h]? = some x → (∀ r, x ≠ Handle.related r) →
    session'.handles[h]? = some x

end Session

namespace SessionAction

variable {session : Session} {i : Iterator} {d d' : Documents} {v : Value} {s' : Store}

theorem outcome_relatedOf {source : Nat} {r : RelatedDocuments}
    (hholds : session.handles[source]? = some (.related r)) :
    (relatedOf source).outcome session = (.ok r, session) := by
  unfold relatedOf
  rw [outcome_bind_ok (outcome_handle hholds)]
  rfl

/-- The session in which the reading of documents with relations has begun. -/
def begun (session : Session) (source : Nat) (r : RelatedDocuments) : Session :=
  { session with
    handles := session.handles.set source
      (.related { r with cursor := { r.cursor with isConsumed := true } }) }

section

variable {source : Nat} {r : RelatedDocuments}

end

end SessionAction

namespace Session

open SessionAction

variable {session : Session} {h : Nat} {d d' d₁ : Documents} {v : Value} {s' : Store}

/-- Documents are read one by one through a handle. -/
def Reads (session : Session) (h : Nat) (d : Documents) : Prop :=
  ∃ i, session.handles[h]? = some (.iterator i) ∧ session.Streams i d

/-- What an iterator reads does not depend on which iterators there are. -/
theorem Streams.set {i i₀ j : Iterator} (hi : session.Streams i d)
    (hx : session.handles[h]? = some (.iterator i₀)) :
    ({ session with handles := session.handles.set h (.iterator j) } : Session).Streams i d := by
  have hkeeps {source : Nat} {r : RelatedDocuments}
      (hholds : session.handles[source]? = some (.related r)) :
      (session.handles.set h (.iterator j))[source]? = some (.related r) := by
    have hne : h ≠ source := by
      rintro rfl
      cases hholds.symm.trans hx
    exact (List.getElem?_set_ne hne).trans hholds
  cases hi with
  | documents d => exact .documents d
  | related d hholds hinactive => exact .related d (hkeeps hholds) hinactive
  | begins hholds hinactive hfresh hcompiles =>
    exact .begins (hkeeps hholds) hinactive hfresh hcompiles

end Session

end DocStore
