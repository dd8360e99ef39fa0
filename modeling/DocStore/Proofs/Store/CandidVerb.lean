import DocStore.Proofs.Store.Candid
import DocStore.Proofs.Store.Search
import DocStore.Store.Verb

/-!
What verbs do, with the failures that they meet. The answer to a query ends as
the library says, whoever reads it; and so whatever the library raises or the
connection refuses, at whichever statement, row or text, is what the verb fails
with.
-/

namespace DocStore

variable {α β : Type}

/-- The answer that documents are read from ends as the library says. -/
def Documents.Linked (d : Documents) (w : Library) : Prop :=
  ∀ cursor rest, d.reading = .under cursor rest →
    w.cursors cursor = some (d.query.statement.text w.engine, rest.refusal)

theorem Documents.Linked.later {d : Documents} {w w' : Library} (h : d.Linked w) (hw : w.Later w') :
    d.Linked w' := by
  intro cursor rest hreading
  exact hw.statement (h cursor rest hreading)

namespace Action

variable {w : Library}

/-! ### Reading documents -/

theorem candid_failAtRow (cursor : Nat) (fault : Misuse) :
    Candid (failAtRow cursor fault : Action α) :=
  (candid_record rfl fun _ => rfl).bind fun _ => .throw rfl

theorem candid_takeRow (q : Query) (cursor skip : Nat) (row : Row) :
    Candid (takeRow q cursor skip row) := by
  unfold takeRow
  refine (candid_record rfl fun _ => rfl).bind fun _ => ?_
  split
  · exact candid_failAtRow ..
  · exact .pure _
  · split
    · exact .pure _
    · split
      · exact candid_failAtRow ..
      · exact .pure _

theorem surfaces_nextAmong {d : Documents} {cursor : Nat} {refusal : Option Refusal} (skip : Nat)
    (rows : List Row)
    (hcursor : w.cursors cursor = some (d.query.statement.text w.engine, refusal)) :
    Surfaces (nextAmong d cursor refusal skip rows) w fun p w' => p.2.Linked w' := by
  induction rows generalizing skip w with
  | nil => exact (surfaces_endRows hcursor).bind fun _ _ _ _ => .pure nofun
  | cons row rows ih =>
    unfold nextAmong
    refine ((candid_takeRow d.query cursor skip row).surfaces w).bind fun p w' hw _ => ?_
    have hcursor' := hw.statement hcursor
    split
    · exact ih _ hcursor'
    · refine .pure ?_
      rintro _ _ ⟨⟩
      exact hcursor'

theorem surfaces_allAmong {q : Query} {cursor : Nat} {refusal : Option Refusal} (skip : Nat)
    (left : Option Nat) (rows : List Row)
    (hcursor : w.cursors cursor = some (q.statement.text w.engine, refusal)) :
    Surfaces (allAmong q cursor refusal skip left rows) w fun _ _ => True := by
  have hfull {w : Library} : Surfaces (do record (.close cursor); return [] : Action (List Value)) w
      fun _ _ => True := ((candid_record rfl fun _ => rfl).bind fun _ => .pure _).surfaces w
  induction rows generalizing skip left w with
  | nil =>
    by_cases hleft : left = some 0
    · rw [hleft, allAmong_full]
      exact hfull
    · rw [allAmong_nil _ _ _ _ hleft]
      exact (surfaces_endRows hcursor).bind fun _ _ _ _ => .pure trivial
  | cons row rows ih =>
    by_cases hleft : left = some 0
    · rw [hleft, allAmong_full]
      exact hfull
    · rw [allAmong_cons _ _ _ _ hleft]
      refine ((candid_takeRow q cursor skip row).surfaces w).bind fun p w' hw _ => ?_
      have hcursor' := hw.statement hcursor
      split
      · exact ih _ _ hcursor'
      · exact (ih _ _ hcursor').bind fun _ _ _ _ => .pure trivial

end Action

namespace Documents

open DocStore.Action

variable {w : Library} {d : Documents}

theorem surfaces_opened (hd : d.Linked w) : Surfaces d.opened w fun d' w' => d'.Linked w' := by
  unfold opened
  split
  · refine ((candid_composes.ensureTable _).surfaces w).bind fun _ w' _ _ => (surfaces_send _).bind ?_
    rintro ⟨cursor, reply⟩ w'' - hcursor
    refine .pure ?_
    rintro _ _ ⟨⟩
    exact hcursor
  · exact .pure hd

theorem surfaces_next (hd : d.Linked w) : Surfaces d.next w fun p w' => p.2.Linked w' := by
  unfold next
  refine (surfaces_opened hd).bind fun d' w' _ hd' => ?_
  split
  next cursor reply hreading =>
    split
    · exact ((candid_record rfl fun _ => rfl).surfaces w').bind fun _ _ _ _ => .pure nofun
    · exact surfaces_nextAmong _ _ (hd' cursor reply hreading)
  next => exact .pure hd'

theorem surfaces_toList (hd : d.Linked w) : Surfaces d.toList w fun _ _ => True := by
  unfold toList
  refine (surfaces_opened hd).bind fun d' w' _ hd' => ?_
  split
  next cursor reply hreading => exact surfaces_allAmong _ _ _ (hd' cursor reply hreading)
  next => exact .pure trivial

theorem surfaces_first (hd : d.Linked w) : Surfaces d.first w fun _ _ => True := by
  have habandon (d : Documents) : Candid d.abandon := by
    unfold abandon
    split
    · exact candid_record rfl fun _ => rfl
    · exact .pure ()
  unfold first
  refine (surfaces_next hd).bind fun p w' _ _ => ?_
  split
  · exact .pure trivial
  · exact ((habandon _).bind fun _ => .pure _).surfaces w'

/-- Documents whose query has not been sent are read from no answer yet. -/
theorem linked_documents (q : Query) : q.documents.Linked w := nofun

end Documents

namespace Action

theorem candid_find (c : Nat) (filter : Filter) (options : FindOptions) :
    Candid (find c filter options) :=
  ⟨fun w => ((candid_composes.compile c filter options).surfaces w).bind fun q _ _ _ =>
    Documents.surfaces_toList (Documents.linked_documents q)⟩

theorem candid_findOne (c : Nat) (filter : Filter) (options : FindOptions) :
    Candid (findOne c filter options) :=
  ⟨fun w => ((candid_composes.compile c filter _).surfaces w).bind fun q _ _ _ =>
    Documents.surfaces_first (Documents.linked_documents q)⟩

/-- The failures that verbs meet surface. -/
theorem candid_composesVerbs : ComposesVerbs fun _ a => Candid a where
  toComposes := candid_composes
  find := candid_find
  findOne := candid_findOne
  eachRow := candid_eachRow

end Action

end DocStore
