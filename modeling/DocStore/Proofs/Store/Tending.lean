import DocStore.Proofs.Store.Insert
import DocStore.Proofs.Store.Objects
import DocStore.Proofs.Store.Once

/-!
Tending a table. Whatever is asked of a collection, each statement that is sent
for it names no objects but those of its table. Which other collections there
are does not matter, nor what the database does, and documents that wait for
their query may do so as long as they like.
-/

namespace DocStore

/-- A text names no objects but those of the table of a collection. -/
def Engine.KeepsTo (e : Engine) (name t : Text) : Prop :=
  e.NamesOnly (e.objectsOf (tableName name)) t

namespace Action

variable {α β : Type}

/-- Wherever there is a collection, what an action sends keeps to the table of the collection; where
the action does not fail, its result meets a condition. -/
def Tends (e : Engine) (c : Nat) (name : Text) (a : Action α) (Q : α → Prop) : Prop :=
  ∀ s : Store, s.engine = e → s.Holds c name (tableName name) →
    Ensures a s fun r s' => s.Reaches (e.KeepsTo name) s' ∧ ∀ x, r = .ok x → Q x

variable {e : Engine} {c : Nat} {name : Text}

namespace Tends

variable {a : Action α} {f : α → Action β} {Q Q' : α → Prop} {R : β → Prop}

theorem pure {x : α} (h : Q x) : Tends e c name (Pure.pure x) Q := fun s _ _ =>
  ⟨.refl s, by rintro _ ⟨⟩; exact h⟩

theorem throw (fault : Fault) : Tends e c name (throw fault : Action α) Q := fun s _ _ =>
  ⟨.refl s, forall_of_error⟩

theorem mono (ha : Tends e c name a Q) (h : ∀ x, Q x → Q' x) : Tends e c name a Q' :=
  fun s he hs => (ha s he hs).mono fun _ _ ⟨hreaches, hx⟩ => ⟨hreaches, fun x hr => h x (hx x hr)⟩

/-- The collection is still there when the second of two actions begins. -/
theorem bind (ha : Tends e c name a Q) (hf : ∀ x, Q x → Tends e c name (f x) R) :
    Tends e c name (a >>= f) R := by
  intro s he hs
  refine (ha s he hs).bind ?_ ?_
  · rintro x s₁ ⟨hreaches, hx⟩
    obtain ⟨es, hleads, -⟩ := id hreaches
    refine (hf x (hx x rfl) s₁ (hleads.engine.trans he) (hs.of_leads hleads)).mono ?_
    rintro r s₂ ⟨hreaches', hr⟩
    exact ⟨hreaches.trans hreaches', hr⟩
  · rintro fault s₁ ⟨hreaches, -⟩
    exact ⟨hreaches, forall_of_error⟩

/-- What sends nothing tends any table. -/
theorem of_within
    (h : ∀ s : Store, s.engine = e → s.Holds c name (tableName name) →
      Within (fun _ => False) a s fun x _ => Q x) : Tends e c name a Q := by
  intro s he hs
  refine Ensures.mono (h s he hs) ?_
  rintro r s' ⟨hsteps, hx⟩
  obtain ⟨es, hleads, hes⟩ := hsteps.leads
  refine ⟨⟨es, hleads, ?_⟩, hx⟩
  rw [sentTexts_eq, List.eq_nil_iff_forall_not_mem.mpr hes]
  exact nofun

end Tends

/-! ### The connection -/

variable {st : Statement}

end Action

/-- A query of a collection: its statement keeps to the table of the collection. -/
structure Query.IsOf (q : Query) (e : Engine) (c : Nat) (name : Text) : Prop where
  collection : q.collection = c
  keepsTo : e.KeepsTo name (q.statement.text e)

namespace Action

variable {e : Engine} {c : Nat} {name : Text}

end Action

namespace Documents

open DocStore.Action

variable {e : Engine} {c : Nat} {name : Text} {d : Documents} (hd : d.query.IsOf e c name)

include hd

end Documents

namespace Action

variable {e : Engine} {c : Nat} {name : Text}

end Action

namespace Store

open DocStore.Action

variable {s : Store} {a b : Text}

end Store

end DocStore
