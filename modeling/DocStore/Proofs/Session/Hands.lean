import DocStore.Proofs.Session.Rejection
import DocStore.Proofs.Store.Once

/-!
The handles of a cursor. A cursor is behind one handle, and the iterators that it
hands out are behind the next ones. What is asked of them is told here together
with the texts that are sent for it, and with how the handles are left.
-/

namespace DocStore

namespace SessionAction

variable {α β : Type} {session session' : Session} {T T' T'' : List Text → Prop}

/-- An action sends texts that meet a condition, and its result and the session after it meet another
one. -/
def Sends (T : List Text → Prop) (a : SessionAction α) (session : Session)
    (R : Except Fault α → Session → Prop) : Prop :=
  ∃ es, session.store.Leads es (a.outcome session).2.store ∧
    T (sentTexts session.store.engine es) ∧ R (a.outcome session).1 (a.outcome session).2

namespace Sends

variable {a : SessionAction α} {f : α → SessionAction β} {R : Except Fault α → Session → Prop}
  {Q : Except Fault β → Session → Prop}

/-- An action that leaves the store as it is. -/
theorem nothing {r : Except Fault α} (hrun : a.outcome session = (r, session'))
    (hstore : session'.store = session.store) (hR : R r session') :
    Sends (· = []) a session R := by
  unfold Sends
  rw [hrun, hstore]
  exact ⟨[], .refl _, rfl, hR⟩

theorem bind (ha : Sends T a session R)
    (hok : ∀ x session', R (.ok x) session' → session'.store.engine = session.store.engine →
      Sends T' (f x) session' Q)
    (herror : ∀ fault session', R (.error fault) session' → Q (.error fault) session')
    (hT : ∀ texts, T texts → T'' texts)
    (hT' : ∀ texts texts', T texts → T' texts' → T'' (texts ++ texts')) :
    Sends T'' (a >>= f) session Q := by
  obtain ⟨es, hleads, hsent, hR⟩ := ha
  unfold Sends
  rcases hrun : a.outcome session with ⟨r, session₁⟩
  rw [hrun] at hleads hR
  cases r with
  | ok x =>
    obtain ⟨es', hleads', hsent', hQ⟩ := hok x session₁ hR hleads.engine
    rw [hleads.engine] at hsent'
    rw [outcome_bind_ok hrun]
    refine ⟨es ++ es', hleads.trans hleads', ?_, hQ⟩
    rw [sentTexts_append]
    exact hT' _ _ hsent hsent'
  | error fault =>
    rw [outcome_bind_error hrun]
    exact ⟨es, hleads, hT _ hsent, herror fault session₁ hR⟩

/-- Only the first of two actions sends anything. -/
theorem bind_quiet (ha : Sends T a session R)
    (hok : ∀ x session', R (.ok x) session' → Sends (· = []) (f x) session' Q)
    (herror : ∀ fault session', R (.error fault) session' → Q (.error fault) session') :
    Sends T (a >>= f) session Q := by
  refine ha.bind (fun x session' hR _ => hok x session' hR) herror (fun _ h => h) ?_
  rintro texts _ htexts rfl
  rwa [List.append_nil]

/-- Only the second of two actions sends anything. -/
theorem quiet_bind (ha : Sends (· = []) a session R)
    (hok : ∀ x session', R (.ok x) session' → session'.store.engine = session.store.engine →
      Sends T (f x) session' Q)
    (herror : ∀ fault session', R (.error fault) session' → Q (.error fault) session')
    (hT : T []) : Sends T (a >>= f) session Q := by
  refine ha.bind hok herror ?_ ?_
  · rintro _ rfl
    exact hT
  · rintro _ texts rfl htexts
    exact htexts

/-- What is done after an action that succeeds and leaves the store as it is. -/
theorem after {x : α} (hrun : a.outcome session = (.ok x, session'))
    (hstore : session'.store = session.store) (hf : Sends T (f x) session' Q) :
    Sends T (a >>= f) session Q := by
  unfold Sends
  rw [outcome_bind_ok hrun, ← hstore]
  exact hf

theorem mono {R' : Except Fault α → Session → Prop} (ha : Sends T a session R)
    (hT : ∀ texts, T texts → T' texts) (hR : ∀ r session', R r session' → R' r session') :
    Sends T' a session R' := by
  obtain ⟨es, hleads, hsent, hresult⟩ := ha
  exact ⟨es, hleads, hT _ hsent, hR _ _ hresult⟩

/-- A result that is turned into a reply. -/
theorem reply {g : α → β} (ha : Sends T a session R)
    (hok : ∀ x session', R (.ok x) session' → Q (.ok (g x)) session')
    (herror : ∀ fault session', R (.error fault) session' → Q (.error fault) session') :
    Sends T (do return g (← a)) session Q :=
  ha.bind_quiet (fun x session' hR => .nothing rfl rfl (hok x session' hR)) herror

end Sends

theorem sends_ofAction {a : Action α} {P : α → Prop} (ha : Action.Sends T a session.store P) :
    Sends T (ofAction a) session fun r session' =>
      r = (a.outcome session.store).1 ∧ session'.handles = session.handles ∧
        ∀ x, r = .ok x → P x := by
  obtain ⟨⟨es, hleads, hsent⟩, hP⟩ := ha
  unfold Sends
  rw [outcome_ofAction (a := a) rfl]
  exact ⟨es, hleads, hsent, rfl, rfl, hP⟩

theorem outcome_handle_none {n : Nat} (hn : session.handles[n]? = none) :
    (handle n).outcome session = (.error (.misuse .noMember), session) := by
  unfold handle
  rw [outcome_get_bind, hn]
  rfl

theorem outcome_next_none {n : Nat} (hn : session.handles[n]? = none) :
    (next n).outcome session = (.error (.misuse .noMember), session) :=
  outcome_bind_error (outcome_handle_none hn)

end SessionAction

/-! ### The handles of a cursor -/

namespace Session

variable {session : Session} {h i : Nat} {k k' : Cursor} {its : List Iterator}

/-- A cursor is behind a handle, and the iterators that it handed out are behind the next ones. -/
def Hands (session : Session) (h : Nat) (k : Cursor) (its : List Iterator) : Prop :=
  ∃ before : List Handle, before.length = h ∧
    session.handles = before ++ .cursor k :: its.map Handle.iterator

namespace Hands

theorem of_handles {session' : Session} (hands : session.Hands h k its)
    (hhandles : session'.handles = session.handles) : session'.Hands h k its := by
  unfold Hands
  rw [hhandles]
  exact hands

theorem length_eq (hands : session.Hands h k its) :
    session.handles.length = h + 1 + its.length := by
  obtain ⟨before, rfl, hhandles⟩ := hands
  rw [hhandles, List.length_append, List.length_cons, List.length_map]
  omega

theorem cursor (hands : session.Hands h k its) : session.handles[h]? = some (.cursor k) := by
  obtain ⟨before, rfl, hhandles⟩ := hands
  rw [hhandles, List.getElem?_append_right (Nat.le_refl _), Nat.sub_self]
  rfl

theorem iterator (hands : session.Hands h k its) (i : Nat) :
    session.handles[h + 1 + i]? = its[i]?.map .iterator := by
  obtain ⟨before, rfl, hhandles⟩ := hands
  have hplace : before.length + 1 + i - before.length = i + 1 := by omega
  rw [hhandles, List.getElem?_append_right (by omega), hplace, List.getElem?_cons_succ,
    List.getElem?_map]

theorem put_cursor (hands : session.Hands h k its) (k' : Cursor) :
    ({ session with handles := session.handles.set h (.cursor k') } : Session).Hands h k' its := by
  obtain ⟨before, rfl, hhandles⟩ := hands
  refine ⟨before, rfl, ?_⟩
  show session.handles.set before.length (.cursor k') = _
  rw [hhandles, List.set_append_right _ _ (Nat.le_refl _), Nat.sub_self]
  rfl

theorem put_iterator (hands : session.Hands h k its) (i : Nat) (j : Iterator) :
    ({ session with handles := session.handles.set (h + 1 + i) (.iterator j) } : Session).Hands h k
      (its.set i j) := by
  obtain ⟨before, rfl, hhandles⟩ := hands
  have hplace : before.length + 1 + i - before.length = i + 1 := by omega
  refine ⟨before, rfl, ?_⟩
  show session.handles.set (before.length + 1 + i) (.iterator j) = _
  rw [hhandles, List.set_append_right _ _ (by omega), hplace, List.set_cons_succ, List.map_set]

theorem handOut (hands : session.Hands h k its) (j : Iterator) :
    ({ session with handles := session.handles ++ [.iterator j] } : Session).Hands h k
      (its ++ [j]) := by
  obtain ⟨before, rfl, hhandles⟩ := hands
  refine ⟨before, rfl, ?_⟩
  show session.handles ++ [.iterator j] = _
  rw [hhandles, List.map_append, List.append_assoc]
  rfl

end Hands

end Session

/-- An iterator sends nothing any more. -/
def Iterator.IsSpent : Iterator → Prop
  | .documents d => d.HasBegun
  | .finished => True
  | _ => False

/-- The cursor after its reading began. -/
def Cursor.consumed (k : Cursor) : Cursor := { k with isConsumed := true }

/-- All iterators that a cursor handed out are spent. -/
def Session.Spends (session : Session) (h : Nat) (k : Cursor) : Prop :=
  ∃ its, session.Hands h k its ∧ ∀ j ∈ its, j.IsSpent

namespace SessionAction

open Session

variable {session : Session} {h i : Nat} {k : Cursor} {its : List Iterator} {d : Documents}
  {T : List Text → Prop}

/-! ### Asking an iterator -/

/-- The next document of documents that are read through a handle. -/
theorem sends_next_documents (hands : session.Hands h k its) (hi : its[i]? = some (.documents d))
    (hnext : Action.Sends T d.next session.store fun p => p.2.HasBegun) :
    Sends T (next (h + 1 + i)) session fun _ session' =>
      ∃ j : Iterator, j.IsSpent ∧ session'.Hands h k (its.set i j) := by
  have hx : session.handles[h + 1 + i]? = some (.iterator (.documents d)) := by
    rw [hands.iterator, hi]
    rfl
  let session₁ : Session :=
    { session with handles := session.handles.set (h + 1 + i) (.iterator .finished) }
  have haway : session₁.Hands h k (its.set i .finished) := hands.put_iterator i .finished
  have hput : (put (h + 1 + i) (.iterator .finished)).outcome session = (.ok (), session₁) := rfl
  have hread : Sends T (nextOf (.documents d)) session₁ fun r session' =>
      session'.Hands h k (its.set i .finished) ∧ ∀ p, r = .ok p → p.2.IsSpent := by
    have hsent : Sends T (ofAction d.next) session₁ _ := sends_ofAction hnext
    refine hsent.bind_quiet ?_ ?_
    · rintro ⟨v, d'⟩ session₂ ⟨-, hhandles, hbegun⟩
      refine .nothing rfl rfl ⟨haway.of_handles hhandles, ?_⟩
      rintro _ ⟨⟩
      exact hbegun _ rfl
    · rintro fault session₂ ⟨-, hhandles, -⟩
      exact ⟨haway.of_handles hhandles, forall_of_error⟩
  unfold next
  refine .after (outcome_handle hx) rfl (.after hput rfl ?_)
  refine hread.bind_quiet ?_ ?_
  · rintro ⟨v, j⟩ session₂ ⟨hands₂, hspent⟩
    have hagain := hands₂.put_iterator i j
    rw [List.set_set] at hagain
    exact .nothing rfl rfl ⟨j, hspent _ rfl, hagain⟩
  · rintro fault session₂ ⟨hands₂, -⟩
    exact ⟨.finished, trivial, hands₂⟩

theorem forall_isSpent_set {j : Iterator} (hspent : ∀ j ∈ its, j.IsSpent) (hj : j.IsSpent) :
    ∀ j' ∈ its.set i j, j'.IsSpent := fun j' hj' =>
  (List.mem_or_eq_of_mem_set hj').elim (hspent j') fun heq => heq ▸ hj

section

variable (hdone : session.Spends h k)

include hdone

theorem sends_next_done (i : Nat) : Sends (· = []) (next (h + 1 + i)) session fun _ session' =>
    session'.Spends h k := by
  obtain ⟨its, hands, hspent⟩ := id hdone
  cases hi : its[i]? with
  | none =>
    have hx : session.handles[h + 1 + i]? = none := by
      rw [hands.iterator, hi]
      rfl
    exact .nothing (outcome_next_none hx) rfl hdone
  | some j =>
    have hj := hspent j (List.mem_of_getElem? hi)
    cases j with
    | documents d =>
      refine (sends_next_documents hands hi (Documents.sends_next_begun hj)).mono (fun _ h => h) ?_
      rintro r session' ⟨j', hj', hands'⟩
      exact ⟨_, hands', forall_isSpent_set hspent hj'⟩
    | finished =>
      have hx : session.handles[h + 1 + i]? = some (.iterator .finished) := by
        rw [hands.iterator, hi]
        rfl
      have haway := (hands.put_iterator i .finished).put_iterator i .finished
      have hfinished : Iterator.finished.IsSpent := trivial
      unfold next
      refine .after (outcome_handle hx) rfl (.nothing rfl rfl ?_)
      exact ⟨_, haway, forall_isSpent_set (forall_isSpent_set hspent hfinished) hfinished⟩
    | results source position => exact hj.elim
    | related source reading => exact hj.elim

theorem sends_take_done (i count : Nat) : Sends (· = []) (take (h + 1 + i) count) session
    fun _ session' => session'.Spends h k := by
  induction count generalizing session with
  | zero => exact .nothing rfl rfl hdone
  | succ count ih =>
    unfold take
    refine (sends_next_done hdone i).bind_quiet ?_ fun _ _ hdone' => hdone'
    rintro v session' hdone'
    cases v with
    | none => exact .nothing rfl rfl hdone'
    | some v => exact (ih hdone').bind_quiet (fun _ _ h => .nothing rfl rfl h) fun _ _ h => h

theorem sends_abandon_done (i : Nat) : Sends (· = []) (abandon (h + 1 + i)) session
    fun _ session' => session'.Spends h k := by
  obtain ⟨its, hands, hspent⟩ := id hdone
  cases hi : its[i]? with
  | none =>
    have hx : session.handles[h + 1 + i]? = none := by
      rw [hands.iterator, hi]
      rfl
    exact .nothing (outcome_bind_error (outcome_handle_none hx)) rfl hdone
  | some j =>
    have hj := hspent j (List.mem_of_getElem? hi)
    have hx : session.handles[h + 1 + i]? = some (.iterator j) := by
      rw [hands.iterator, hi]
      rfl
    have haway := hands.put_iterator i .finished
    unfold abandon
    refine .after (outcome_handle hx) rfl (.after rfl rfl ?_)
    cases j with
    | documents d =>
      refine (sends_ofAction (Documents.sends_abandon d)).mono (fun _ h => h) ?_
      rintro r session' ⟨-, hhandles, -⟩
      exact ⟨_, haway.of_handles hhandles, forall_isSpent_set hspent trivial⟩
    | finished => exact .nothing rfl rfl ⟨_, haway, forall_isSpent_set hspent trivial⟩
    | results source position => exact hj.elim
    | related source reading => exact hj.elim

end

/-! ### Asking the cursor -/

theorem outcome_beginCursor {r : Except Fault Query} {s' : Store} (hfresh : k.isConsumed = false)
    (hcompile : (Action.compile k.collection k.filter k.options).outcome session.store = (r, s')) :
    (beginCursor h k).outcome session = (r.map Query.documents,
      { store := s', handles := session.handles.set h (.cursor k.consumed) }) := by
  have hput : (put h (.cursor k.consumed)).outcome session =
      (.ok (), { session with handles := session.handles.set h (.cursor k.consumed) }) := rfl
  have hrun : (ofAction (Action.compile k.collection k.filter k.options)).outcome
      { session with handles := session.handles.set h (.cursor k.consumed) } =
        (r, { store := s', handles := session.handles.set h (.cursor k.consumed) }) :=
    outcome_ofAction hcompile
  unfold beginCursor begin
  rw [hfresh]
  simp only [Bool.false_eq_true, if_false]
  refine (outcome_bind_ok hput).trans ?_
  cases r with
  | ok q =>
    rw [outcome_bind_ok hrun]
    rfl
  | error fault => rw [outcome_bind_error hrun]; rfl

/-- A cursor whose reading began fails by its state. -/
theorem outcome_beginCursor_consumed {c : Collection}
    (hc : session.store.collections[k.collection]? = some c) :
    (beginCursor h k.consumed).outcome session = (.error (.consumed c.name), session) := by
  unfold beginCursor begin
  refine (outcome_bind_ok (outcome_ofAction (Action.outcome_collection hc))).trans ?_
  exact outcome_bind_error rfl

end SessionAction

end DocStore
