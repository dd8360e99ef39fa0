import DocStore.Proofs.Store.Run
import DocStore.Store.Collection

/-!
What is left as it is. Whatever is sent, logged and read, the options of a store
stay the same, and so do its collections and those that are handed out again,
until a collection gets to know of its table, is made or is dropped.
-/

namespace DocStore

/-- The options of a store, its collections, and which of them are handed out again. -/
def Store.holdings (s : Store) : ConnectionOptions × List Collection × List (Text × Nat) :=
  (s.options, s.collections, s.registry)

namespace Store

variable {s s' : Store} (h : s'.holdings = s.holdings)

include h

theorem options_of_holdings : s'.options = s.options := congrArg Prod.fst h

theorem collections_of_holdings : s'.collections = s.collections := congrArg (·.2.1) h

theorem registry_of_holdings : s'.registry = s.registry := congrArg (·.2.2) h

end Store

namespace Action

variable {α β γ δ : Type}

/-- An action that leaves something of the store as it is. -/
structure Keeps (g : Store → γ) (a : Action α) : Prop where
  ensures : ∀ s, Ensures a s fun _ s' => g s' = g s

namespace Keeps

variable {g : Store → γ} {a : Action α} {f : α → Action β}

theorem pure (x : α) : Keeps g (Pure.pure x) := ⟨fun _ => rfl⟩

theorem throw (fault : Fault) : Keeps g (throw fault : Action α) := ⟨fun _ => rfl⟩

theorem bind (ha : Keeps g a) (hf : ∀ x, Keeps g (f x)) : Keeps g (a >>= f) := by
  refine ⟨fun s => Ensures.bind (ha.ensures s) (fun x s' hs' => ?_) fun _ _ hs' => hs'⟩
  exact ((hf x).ensures s').mono fun _ _ h => h.trans hs'

theorem get_bind {f : Store → Action β} (h : ∀ s, Keeps g (f s)) : Keeps g (get >>= f) :=
  ⟨fun s => (h s).ensures s⟩

theorem modify {h : Store → Store} (hg : ∀ s : Store, g (h s) = g s) : Keeps g (modify h) := ⟨hg⟩

theorem modify_bind {h : Store → Store} {f : PUnit → Action β}
    (hg : ∀ s : Store, g (h s) = g s) (hf : Keeps g (f ())) :
    Keeps g (MonadState.modifyGet (fun s => ((), h s)) >>= f) := (modify hg).bind fun _ => hf

theorem ofMisuse (r : Except Misuse α) : Keeps g (ofMisuse r) := by
  cases r with
  | ok x => exact pure x
  | error fault => exact throw _

/-- What is left as it is can be known in less detail. -/
theorem map (h : Keeps g a) (k : γ → δ) : Keeps (k ∘ g) a :=
  ⟨fun s => (h.ensures s).mono fun _ _ hs' => congrArg k hs'⟩

end Keeps

theorem keeps_log (level : Level) (message : Text) (metadata : Members) :
    Keeps Store.holdings (log level message metadata) := .modify fun _ => rfl

theorem keeps_record (e : Event) : Keeps Store.holdings (record e) := .modify fun _ => rfl

theorem keeps_fail (fault : Fault) : Keeps Store.holdings (fail fault : Action α) := by
  have hlog : Keeps Store.holdings (logRefused fault) := by
    cases fault with
    | statement f => exact .modify fun _ => rfl
    | _ => exact .pure ()
  exact hlog.bind fun _ => .throw fault

theorem keeps_inDialect (f : Dialect → Except Fault α) : Keeps Store.holdings (inDialect f) := by
  refine .get_bind fun s => ?_
  split
  · exact .pure _
  · exact keeps_fail _

theorem keeps_collection (c : Nat) : Keeps Store.holdings (collection c) := by
  refine .get_bind fun s => ?_
  split
  · exact .pure _
  · exact .throw _

theorem keeps_send (st : Statement) : Keeps Store.holdings (send st) := by
  unfold send
  refine .get_bind fun s => ?_
  extract_lets text answered sent
  have hanswered (x : Unit) : Keeps Store.holdings (answered x) := by
    unfold answered
    split
    · split
      exact .modify_bind (fun _ => rfl) (.pure _)
    · exact .pure _
  have hsent (x : Unit) : Keeps Store.holdings (sent x) := by
    unfold sent
    refine (keeps_log ..).bind fun _ => (keeps_record _).bind fun _ =>
      .modify_bind (fun _ => rfl) ?_
    split
    · split
      · exact (keeps_fail _).bind hanswered
      · exact hanswered ()
    · exact hanswered ()
  split
  · exact (Keeps.throw _).bind hsent
  · exact hsent ()

theorem keeps_change (st : Statement) : Keeps Store.holdings (change st) := by
  unfold change
  exact (keeps_send st).bind fun _ => (keeps_record _).bind fun _ => .get_bind fun _ => .pure _

theorem keeps_failReading (cursor : Nat) (st : Statement) (r : Refusal) :
    Keeps Store.holdings (failReading cursor st r : Action α) :=
  (keeps_record _).bind fun _ => .get_bind fun _ => keeps_fail _

theorem keeps_rows (st : Statement) : Keeps Store.holdings (rows st) := by
  unfold rows
  refine (keeps_send st).bind fun p => (keeps_record _).bind fun _ => ?_
  split
  · exact keeps_failReading ..
  · exact (keeps_record _).bind fun _ => .pure _

theorem keeps_endRows (cursor : Nat) (st : Statement) (refusal : Option Refusal) :
    Keeps Store.holdings (endRows cursor st refusal) := by
  unfold endRows
  refine (keeps_record _).bind fun _ => ?_
  split
  · exact keeps_failReading ..
  · exact keeps_record _

theorem keeps_eachRow (st : Statement) : Keeps Store.holdings (eachRow st) := by
  have hread (cursor : Nat) (refusal : Option Refusal) (rows : List Row) :
      Keeps Store.holdings (readEach cursor st refusal rows) := by
    induction rows with
    | nil => exact (keeps_endRows ..).bind fun _ => .pure _
    | cons row rows ih => exact (keeps_record _).bind fun _ => ih.bind fun _ => .pure _
  exact (keeps_send st).bind fun _ => hread ..

theorem keeps_makeTable (table : Text) : Keeps Store.holdings (makeTable table) := by
  have hsend (sqls : List Sql) : Keeps Store.holdings (sendAll table sqls) := by
    induction sqls with
    | nil => exact .pure _
    | cons sql sqls ih => exact (keeps_change _).bind fun _ => ih
  exact (keeps_inDialect _).bind hsend

/-! ### The collections that are handed out again -/

/-- An action that leaves the collections that are handed out as they are. -/
abbrev KeepsRegistry (a : Action α) : Prop := Keeps Store.registry a

theorem Keeps.registry {a : Action α} (h : Keeps Store.holdings a) : KeepsRegistry a := h.map (·.2.2)

end Action

end DocStore
