import DocStore.Proofs.Document.AtOnce
import DocStore.Proofs.Session.Stream

/-!
Relations of what a session handed out. Calls on results fill them in at once,
and calls on documents that are read later only add relations, all of which are
filled in together when the documents are read.
-/

namespace DocStore.SessionAction

open Relations

variable {session : Session} {h : Nat} {calls : List Call} {documents filled : List Value}

/-- Makes calls that relate the documents of a handle. -/
def relateAll (h : Nat) : List Call → SessionAction Unit
  | [] => pure ()
  | call :: calls => do
    relate h call.1 (.object call.members)
    relateAll h calls

/-- A call on results fills in its relations. -/
theorem outcome_relate_results {call : Call} {l : Lookedup} {s' : Store}
    (hh : session.handles[h]? = some (.results documents))
    (hfilled : ((add {} call.1 call.members).fillAll Action.lookups documents {}).outcome
      session.store = (.ok (filled, l), s')) :
    (relate h call.1 (.object call.members)).outcome session =
      (.ok (), { store := s', handles := session.handles.set h (.results filled) }) := by
  rw [relate, outcome_bind_ok (outcome_handle hh)]
  dsimp only
  rw [outcome_bind_ok (outcome_ofAction hfilled)]
  rfl

/-- Calls on results that succeed leave what they come to when each fills in its relations at once. -/
theorem outcome_relateAll_results {s' : Store}
    (hh : session.handles[h]? = some (.results documents))
    (hfilled : (fillAtOnce Action.lookups calls documents).outcome session.store =
      (.ok filled, s')) :
    (relateAll h calls).outcome session =
      (.ok (), { store := s', handles := session.handles.set h (.results filled) }) := by
  induction calls generalizing session documents with
  | nil =>
    obtain ⟨hlt, hget⟩ := List.getElem?_eq_some_iff.mp hh
    cases hfilled
    rw [← hget, List.set_getElem_self]
    rfl
  | cons call calls ih =>
    rw [fillAtOnce, List.foldlM_cons, map_eq_pure_bind, bind_assoc] at hfilled
    obtain ⟨⟨documents₁, l⟩, s₁, hfirst, hrest⟩ := Action.exists_of_outcome_bind_ok hfilled
    rw [pure_bind] at hrest
    rw [relateAll, outcome_bind_ok (outcome_relate_results hh hfirst)]
    have hlt := (List.getElem?_eq_some_iff.mp hh).1
    have hh₁ : ({ store := s₁, handles := session.handles.set h (.results documents₁) } :
        Session).handles[h]? = some (.results documents₁) := List.getElem?_set_self hlt
    refine (ih hh₁ hrest).trans ?_
    rw [List.set_set]

/-- Calls on documents that are read later add their relations. -/
theorem outcome_relateAll_related {r : RelatedDocuments}
    (hh : session.handles[h]? = some (.related r)) :
    (relateAll h calls).outcome session = (.ok (), { session with
      handles := session.handles.set h (.related { r with
        relations := calls.foldl (fun r call => add r call.1 call.members) r.relations }) }) := by
  induction calls generalizing session r with
  | nil =>
    obtain ⟨hlt, hget⟩ := List.getElem?_eq_some_iff.mp hh
    rw [List.foldl_nil, ← hget, List.set_getElem_self]
    rfl
  | cons call calls ih =>
    have hcall : (relate h call.1 (.object call.members)).outcome session = (.ok (), { session with
        handles := session.handles.set h (.related { r with
          relations := add r.relations call.1 call.members }) }) := by
      rw [relate, outcome_bind_ok (outcome_handle hh)]
      rfl
    have hlt := (List.getElem?_eq_some_iff.mp hh).1
    rw [relateAll, outcome_bind_ok hcall]
    refine (ih (List.getElem?_set_self hlt)).trans ?_
    rw [List.set_set, List.foldl_cons]

/-- Documents that were read are filled in by the relations of all calls together, when nothing was
remembered of others. -/
theorem outcome_fillAll_related {r : RelatedDocuments} {s' : Store}
    (hh : session.handles[h]? = some (.related { r with
      relations := calls.foldl (fun r call => add r call.1 call.members) {}, lookedup := {} }))
    (hfilled : (fillLater Action.lookups calls documents).outcome session.store =
      (.ok filled, s')) :
    ((fillAll h documents).outcome session).1 = .ok filled := by
  rw [fillLater, map_eq_pure_bind] at hfilled
  obtain ⟨⟨documents₁, l⟩, s₁, hrun, hrest⟩ := Action.exists_of_outcome_bind_ok hfilled
  cases hrest
  rw [fillAll, outcome_bind_ok (outcome_relatedOf hh)]
  dsimp only
  rw [outcome_bind_ok (outcome_ofAction hrun)]
  rfl

end DocStore.SessionAction
