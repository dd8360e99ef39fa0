import DocStore.Proofs.Store.Compose
import DocStore.Session.Request

/-!
What is asked of a session is put together of. Something is done to the store,
and handles are looked at, changed and handed out. What passes from these parts
to what is put together of them needs to be shown of the parts, and of reading
all documents of a handle and asking for an iterator: there an answer is read
through a handle.
-/

namespace DocStore

/-- The documents whose answer is still read. -/
def RelatedReading.documents? : RelatedReading → Option Documents
  | .streaming d => some d
  | _ => none

/-- The documents whose answer an iterator reads. -/
def Iterator.documents? : Iterator → Option Documents
  | .documents d => some d
  | .related _ reading => reading.documents?
  | _ => none

/-- The documents whose answer is read through a handle. -/
def Handle.documents? : Handle → Option Documents
  | .iterator i => i.documents?
  | _ => none

namespace SessionAction

/-- A property of what is asked of a session, which passes from one thing after another to both, and comes
from a property of verbs where something is done to the store. The handles that are changed and handed out
read no answer. -/
structure Composes (J : ∀ ⦃α : Type⦄, Action α → Prop) (K : ∀ ⦃α : Type⦄, SessionAction α → Prop) :
    Prop where
  verbs : Action.ComposesVerbs J
  pure : ∀ {α : Type} (x : α), K (Pure.pure x : SessionAction α)
  throw : ∀ {α : Type} {fault : Fault}, fault.isStatement = false → K (throw fault : SessionAction α)
  bind : ∀ {α β : Type} {a : SessionAction α} {f : α → SessionAction β}, K a → (∀ x, K (f x)) →
    K (a >>= f)
  ofAction : ∀ {α : Type} {a : Action α}, J a → K (ofAction a)
  handle : ∀ h : Nat, K (handle h)
  put : ∀ (h : Nat) {x : Handle}, x.documents? = none → K (put h x)
  handOut : ∀ {x : Handle}, x.documents? = none → K (handOut x)

/-- A property that passes to requests: reading all documents of a handle and asking for an iterator have it
too. -/
structure ComposesRequests (J : ∀ ⦃α : Type⦄, Action α → Prop)
    (K : ∀ ⦃α : Type⦄, SessionAction α → Prop) : Prop extends Composes J K where
  toList : ∀ h : Nat, K (toList h)
  iterate : ∀ h : Nat, K (iterate h)

variable {J : ∀ ⦃α : Type⦄, Action α → Prop} {K : ∀ ⦃α : Type⦄, SessionAction α → Prop}

namespace Composes

variable (hK : Composes J K)

include hK

theorem relatedOf (h : Nat) : K (relatedOf h) := by
  unfold SessionAction.relatedOf
  refine hK.bind (hK.handle h) fun x => ?_
  split
  · exact hK.pure _
  · exact hK.throw rfl

theorem fillAll (h : Nat) (documents : List Value) : K (fillAll h documents) := by
  unfold SessionAction.fillAll
  refine hK.bind (hK.relatedOf h) fun r => hK.bind (hK.ofAction (hK.verbs.fillAll ..)) fun _ => ?_
  exact hK.bind (hK.put h rfl) fun _ => hK.pure _

theorem fillOne (h : Nat) (document : Value) : K (fillOne h document) := by
  unfold SessionAction.fillOne
  refine hK.bind (hK.relatedOf h) fun r => hK.bind (hK.ofAction (hK.verbs.fill ..)) fun _ => ?_
  exact hK.bind (hK.put h rfl) fun _ => hK.pure _

theorem relate (h : Nat) (kind : RelationKind) (relations : Value) : K (relate h kind relations) := by
  unfold SessionAction.relate
  refine hK.bind (hK.handle h) fun x => ?_
  split
  · exact hK.bind (hK.ofAction (hK.verbs.fillAll ..)) fun _ => hK.put h rfl
  · exact hK.put h rfl
  · exact hK.throw rfl

theorem occurrences (h : Nat) (v : Value) : K (occurrences h v) := by
  unfold SessionAction.occurrences
  refine hK.bind (hK.handle h) fun x => ?_
  split
  · exact hK.pure _
  · exact hK.throw rfl

theorem isConsumed (h : Nat) : K (isConsumed h) := by
  unfold SessionAction.isConsumed
  refine hK.bind (hK.handle h) fun x => ?_
  split
  · exact hK.pure _
  · exact hK.throw rfl

end Composes

/-- Every request has the property but the one that goes on reading through a handle. -/
theorem ComposesRequests.request (hK : ComposesRequests J K) {request : Request}
    (hnot : ∀ h count, request ≠ .next h count) : K request.run := by
  have hreply {α : Type} {a : SessionAction α} (ha : K a) (f : α → Response) :
      K (do return f (← a)) := hK.bind ha fun _ => hK.pure _
  cases request with
  | verb v => exact hreply (hK.ofAction (hK.verbs.verb v)) _
  | find name criteria =>
    refine hK.bind (hK.ofAction ?_) fun _ => hreply (hK.handOut rfl) _
    exact hK.verbs.bind (hK.verbs.search name criteria) fun _ => hK.verbs.find ..
  | findLazily name criteria =>
    exact hK.bind (hK.ofAction (hK.verbs.search name criteria)) fun _ => hreply (hK.handOut rfl) _
  | cursor c filter options =>
    exact hK.bind (hK.ofAction (hK.verbs.findOptions options)) fun _ => hreply (hK.handOut rfl) _
  | relate h kind relations => exact hreply (hK.relate h kind relations) _
  | occurrences h v => exact hreply (hK.occurrences h v) _
  | toList h => exact hreply (hK.toList h) _
  | iterate h => exact hreply (hK.iterate h) _
  | next h count => exact absurd rfl (hnot h count)
  | isConsumed h => exact hreply (hK.isConsumed h) _

end SessionAction

end DocStore
