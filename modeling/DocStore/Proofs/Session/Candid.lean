import DocStore.Proofs.Session.Compose
import DocStore.Proofs.Store.CandidVerb

/-!
What is asked of a session, with the failures that it meets. A caller holds on to
iterators, and the answers that they read end as the library says, however long
ago they were asked for; so a failure surfaces in the request in which the
library raises it.
-/

namespace DocStore

open Holder

theorem Documents.linked_none {w : Library} : ∀ d ∈ (none : Option Documents), d.Linked w := by
  intro d hd
  cases hd

instance : Holder Session where
  store := Session.store
  fluent session := { session with store := session.store.fluent }
  Linked session w := ∀ x ∈ session.handles, ∀ d ∈ x.documents?, d.Linked w
  store_fluent _ := rfl
  linked_fluent := id

namespace SessionAction

variable {α : Type} {w : Library} {Q : α → Library → Prop}

/-- What is done to the store meets what it meets there. -/
theorem surfaces_ofAction {a : Action α} (ha : Surfaces a w Q) : Surfaces (ofAction a) w Q := by
  intro session hsession
  have hstore : Tracks session.store w := ⟨hsession.backs, trivial⟩
  obtain ⟨es, calls, h⟩ := ha session.store hstore
  refine ⟨es, calls, h.acts, ⟨h.tracks.backs, ?_⟩, h.later, ?_, h.holds⟩
  · intro x hx d hd
    exact (hsession.linked x hx d hd).later h.later
  · rcases h.ending with ⟨hraised, hblameless, hcalm, hsame⟩ |
      ⟨hparts, hbefore, hraises, hclosings, hresult, hlogged, hcalm⟩ |
      ⟨hquoting, hraised, hresult, hlogged, hcalm, hdone⟩
    · refine .quiet hraised hblameless hcalm ?_
      show (let (r, store) := a.outcome session.store.fluent
        (r, { session with store := store })) = _
      rw [show a.outcome session.store.fluent = _ from hsame]
      rfl
    · exact .raised hparts hbefore hraises hclosings hresult hlogged hcalm
    · exact .unquoted hquoting hraised hresult hlogged hcalm hdone

theorem candid_ofAction {a : Action α} (ha : Candid a) : Candid (ofAction a) :=
  ⟨fun w => surfaces_ofAction (ha.surfaces w)⟩

/-- What a handle holds is read from an answer that ends as the library says. -/
theorem surfaces_handle (h : Nat) :
    Surfaces (handle h) w fun x w' => ∀ d ∈ x.documents?, d.Linked w' := by
  unfold handle
  refine .get_bind (fun _ => rfl) fun session hsession => ?_
  cases hx : session.handles[h]? with
  | some x => exact .pure (hsession.linked x (List.mem_of_getElem? hx))
  | none => exact .throw rfl

theorem candid_handle (h : Nat) : Candid (handle h) := .of_surfaces fun _ => surfaces_handle h

theorem surfaces_handOut {x : Handle} (hx : ∀ d ∈ x.documents?, d.Linked w) :
    Surfaces (handOut x) w fun _ _ => True := by
  intro session hsession
  refine ⟨[], [], .still (.refl _) ⟨hsession.backs, ?_⟩ nofun rfl fun _ _ => trivial⟩
  intro y hy d hd
  obtain hy | hy := List.mem_append.mp hy
  · exact hsession.linked y hy d hd
  · obtain rfl := List.mem_singleton.mp hy
    exact hx d hd

theorem surfaces_put (h : Nat) {x : Handle} (hx : ∀ d ∈ x.documents?, d.Linked w) :
    Surfaces (put h x) w fun _ _ => True := by
  intro session hsession
  refine ⟨[], [], .still (.refl _) ⟨hsession.backs, ?_⟩ nofun rfl fun _ _ => trivial⟩
  intro y hy d hd
  obtain hy | rfl := List.mem_or_eq_of_mem_set hy
  · exact hsession.linked y hy d hd
  · exact hx d hd

/-- Nothing is read through most handles. -/
theorem candid_handOut {x : Handle} (hx : x.documents? = none) : Candid (handOut x) :=
  ⟨fun w => surfaces_handOut (by rw [hx]; exact Documents.linked_none)⟩

theorem candid_put (h : Nat) {x : Handle} (hx : x.documents? = none) : Candid (put h x) :=
  ⟨fun w => surfaces_put h (by rw [hx]; exact Documents.linked_none)⟩

theorem candid_composes : Composes (fun _ a => Candid a) fun _ a => Candid a where
  verbs := Action.candid_composesVerbs
  pure := .pure
  throw := .throw
  bind := .bind
  ofAction := candid_ofAction
  handle := candid_handle
  put h _ := candid_put h
  handOut := candid_handOut

/-! ### Reading through handles -/

theorem surfaces_begin (k : Cursor) {mark : Cursor → SessionAction Unit}
    (hmark : ∀ k, Candid (mark k)) : Surfaces (begin k mark) w fun d w' => d.Linked w' := by
  have hbegin {w : Library} : Surfaces (do
      mark { k with isConsumed := true }
      return (← ofAction (Action.compile k.collection k.filter k.options)).documents) w
        fun d w' => d.Linked w' := by
    refine ((hmark _).surfaces w).bind fun _ w₁ _ _ => ?_
    refine ((candid_ofAction (Action.candid_composes.compile ..)).surfaces w₁).bind fun q _ _ _ => .pure ?_
    exact Documents.linked_documents q
  unfold begin
  split
  · refine ((candid_ofAction (Action.candid_composes.collection _)).surfaces w).bind fun x w₁ _ _ => ?_
    exact (Surfaces.throw (P := fun _ _ => True) rfl).bind fun _ _ _ _ => hbegin
  · exact hbegin

theorem surfaces_beginCursor (h : Nat) (k : Cursor) :
    Surfaces (beginCursor h k) w fun d w' => d.Linked w' :=
  surfaces_begin k fun _ => candid_put h rfl

theorem surfaces_beginRelated (h : Nat) (r : RelatedDocuments) :
    Surfaces (beginRelated h r) w fun d w' => d.Linked w' :=
  surfaces_begin r.cursor fun _ => candid_put h rfl

theorem candid_toList (h : Nat) : Candid (toList h) := by
  have hall {w : Library} {d : Documents} (hd : d.Linked w) :
      Surfaces (ofAction d.toList) w fun _ _ => True :=
    surfaces_ofAction (Documents.surfaces_toList hd)
  unfold toList
  refine (candid_handle h).bind fun x => ?_
  split
  · exact ⟨fun w => (surfaces_beginCursor h _).bind fun d _ _ hd => hall hd⟩
  · exact .pure _
  · refine ⟨fun w => (surfaces_beginRelated h _).bind fun d w₁ _ hd => ?_⟩
    exact (hall hd).bind fun documents w₂ _ _ => (candid_composes.fillAll h documents).surfaces w₂
  · exact .throw rfl

theorem candid_iterate (h : Nat) : Candid (iterate h) := by
  unfold iterate
  refine (candid_handle h).bind fun x => ?_
  split
  · refine ⟨fun w => (surfaces_beginCursor h _).bind fun d _ _ hd => surfaces_handOut ?_⟩
    rintro d ⟨⟩
    exact hd
  · exact candid_handOut rfl
  · exact candid_handOut rfl
  · exact .pure _

theorem surfaces_beginReading (source : Nat) :
    Surfaces (beginReading source) w fun reading w' => ∀ d ∈ reading.documents?, d.Linked w' := by
  unfold beginReading
  refine ((candid_composes.relatedOf source).surfaces w).bind fun r w₁ _ _ => ?_
  refine (surfaces_beginRelated source r).bind fun d w₂ _ hd => ?_
  split
  · refine (surfaces_ofAction (Documents.surfaces_toList hd)).bind fun _ _ _ _ => ?_
    exact .pure Documents.linked_none
  · refine .pure ?_
    rintro d ⟨⟩
    exact hd

theorem surfaces_nextRelated (source : Nat) {reading : RelatedReading}
    (hreading : ∀ d ∈ reading.documents?, d.Linked w) :
    Surfaces (nextRelated source reading) w fun p w' => ∀ d ∈ p.2.documents?, d.Linked w' := by
  unfold nextRelated
  -- What is read is the same whether the reading begins only now or goes on.
  extract_lets read
  have hread (reading : RelatedReading) (w : Library) (h : ∀ d ∈ reading.documents?, d.Linked w) :
      Surfaces (read reading) w fun p w' => ∀ d ∈ p.2.documents?, d.Linked w' := by
    unfold read
    split
    next d =>
      refine (surfaces_ofAction (Documents.surfaces_next (h d rfl))).bind ?_
      rintro ⟨v, d'⟩ w₁ - hd'
      cases v with
      | none => exact .pure Documents.linked_none
      | some v =>
        refine ((candid_composes.fillOne source v).surfaces w₁).bind fun filled w₂ hw _ => .pure ?_
        rintro d ⟨⟩
        exact hd'.later hw
    next v rest =>
      refine ((candid_composes.fillOne source v).surfaces w).bind fun _ _ _ _ => ?_
      exact .pure Documents.linked_none
    next => exact .pure Documents.linked_none
  split
  · exact (surfaces_beginReading source).bind fun _ _ _ h => hread _ _ h
  · refine Surfaces.bind (P := fun reading w' => ∀ d ∈ reading.documents?, d.Linked w')
      (.pure hreading) ?_
    exact fun _ _ _ h => hread _ _ h

theorem surfaces_nextOf {i : Iterator} (hi : ∀ d ∈ i.documents?, d.Linked w) :
    Surfaces (nextOf i) w fun p w' => ∀ d ∈ p.2.documents?, d.Linked w' := by
  unfold nextOf
  split
  next d =>
    refine (surfaces_ofAction (Documents.surfaces_next (hi d rfl))).bind ?_
    rintro ⟨v, d'⟩ w₁ - hd'
    refine .pure ?_
    rintro d ⟨⟩
    exact hd'
  next source position =>
    refine ((candid_handle source).surfaces w).bind fun x w₁ _ _ => ?_
    split
    · split
      · exact .pure Documents.linked_none
      · exact .pure Documents.linked_none
    · exact .pure Documents.linked_none
  next source reading =>
    refine (surfaces_nextRelated source hi).bind ?_
    rintro ⟨v, reading'⟩ w₁ - hreading'
    exact .pure hreading'
  next => exact .pure Documents.linked_none

theorem candid_next (h : Nat) : Candid (next h) := by
  refine ⟨fun w => ?_⟩
  unfold next
  refine (surfaces_handle h).bind fun x w₁ _ hx => ?_
  split
  next i =>
    -- The iterator is put away while it is asked, but its answer ends as it did.
    refine ((candid_put h rfl).surfaces w₁).bind fun _ w₂ hw _ => ?_
    refine (surfaces_nextOf fun d hd => (hx d hd).later hw).bind ?_
    rintro ⟨v, i'⟩ w₃ - hi'
    exact (surfaces_put h (by exact hi')).bind fun _ _ _ _ => .pure trivial
  next => exact .throw rfl

theorem candid_take (h n : Nat) : Candid (take h n) := by
  induction n with
  | zero => exact .pure _
  | succ n ih =>
    unfold take
    refine (candid_next h).bind fun v => ?_
    split
    · exact .pure _
    · exact ih.bind fun _ => .pure _

/-- The failures that a request meets surface, where it does not go on reading through a handle. -/
theorem candid_composesRequests : ComposesRequests (fun _ a => Candid a) fun _ a => Candid a where
  toComposes := candid_composes
  toList := candid_toList
  iterate := candid_iterate

end SessionAction

open SessionAction in
/-- The failures that a request meets surface. -/
theorem Request.candid_run (r : Request) : Candid r.run := by
  by_cases hnext : ∃ h count, r = .next h count
  · obtain ⟨h, count, rfl⟩ := hnext
    exact (candid_take h count).bind fun _ => .pure _
  · exact candid_composesRequests.request fun h count hr => hnext ⟨h, count, hr⟩

end DocStore
