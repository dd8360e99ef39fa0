import DocStore.Proofs.Session.Tables
import DocStore.Proofs.Store.Kept

/-!
The collections that a session hands out again. Whatever is asked and whatever
the database refuses, each of them has the name that it is handed out for and
knows that its table is there. Until a collection of its name is dropped or the
store is closed, it is what that name is obtained as; and what fails to obtain
or to drop a collection leaves all of them as they are.
-/

namespace DocStore

/-- A verb obtains a collection, or drops one that is held. -/
def Verb.ObtainsOrDrops : Verb → Prop
  | .obtain _ _ | .on _ .drop => True
  | _ => False

/-- What fails to obtain or to drop a collection leaves the collections as they are. -/
theorem Verb.ensures_unchanged {s : Store} {v : Verb} (hv : v.ObtainsOrDrops) :
    Action.Ensures v.run s fun r s' => ∀ fault, r = .error fault → s'.holdings = s.holdings := by
  cases v with
  | obtain name database =>
    refine (Action.ensures_obtains _).bind (fun _ _ _ => nofun) fun fault s' h _ _ => ?_
    cases h with
    | fails held => exact held
  | on c verb =>
    cases verb with
    | drop =>
      refine Action.ensures_drops.bind (fun _ _ _ => nofun) fun fault s' h _ _ => ?_
      cases h with
      | fails _ held => exact held
    | _ => exact hv.elim
  | _ => exact hv.elim

/-- A turn asks for the collection of a name, by itself or together with its database. -/
def Turn.Obtains (name : Text) (t : Turn) : Prop :=
  ∃ v database, t.request = .verb (.obtain v database) ∧ identifierOf v database = .str name

namespace Session

variable {session : Session} {name : Text} {c : Nat}

/-- A turn forgets the collections of a name. -/
def Forgets (session : Session) (name : Text) (t : Turn) : Prop :=
  ∃ v, t.request = .verb v ∧
    v.Forgets (session.turnTo t.script).store name (v.run.outcome (session.turnTo t.script).store).1

/-- No turn forgets the collections of a name. -/
def Spares (name : Text) : Session → List Turn → Prop
  | _, [] => True
  | session, t :: turns => ¬ session.Forgets name t ∧ Spares name (session.after t) turns

/-- The collections that are handed out again are kept, and the queries that a caller holds on to read the
tables of their collections. -/
structure Keeping (session : Session) : Prop where
  kept : session.store.Kept
  fits : session.Fits

namespace Keeping

/-- What one turn preserves. -/
theorem after (h : session.Keeping) (t : Turn) : (session.after t).Keeping ∧
    ∀ name c, session.store.registry.lookup name = some c → ¬ session.Forgets name t →
      (session.after t).store.registry.lookup name = some c := by
  have hstart : (session.turnTo t.script).store.Kept := h.kept.of_holdings rfl
  -- What is asked besides verbs is made of steps; a verb may also forget.
  obtain ⟨script, request⟩ := t
  by_cases hv : ∃ v, request = .verb v
  · obtain ⟨v, rfl⟩ := hv
    have hcarries := v.ensures_carries hstart
    rw [after_verb]
    refine ⟨⟨hcarries.kept, (h.fits.turnTo script).retained rfl hcarries.retains⟩,
      fun name c hc hforgets => ?_⟩
    exact hcarries.lookup name c hc fun hname => hforgets ⟨v, rfl, hname⟩
  · obtain ⟨hsteps, hfits⟩ := steps_after (t := ⟨script, request⟩) h.fits fun v h => hv ⟨v, h⟩
    exact ⟨⟨hsteps.kept hstart, hfits⟩, fun name c hc _ => hsteps.lookup hc⟩

/-- What a run of turns preserves. -/
theorem afterAll (h : session.Keeping) (turns : List Turn) : (session.afterAll turns).Keeping := by
  induction turns generalizing session with
  | nil => exact h
  | cons t turns ih => exact ih (h.after t).1

/-- What a name is handed out for is the same after turns that do not forget it. -/
theorem lookup_afterAll {turns : List Turn} (h : session.Keeping) (hspares : session.Spares name turns)
    (hc : session.store.registry.lookup name = some c) :
    (session.afterAll turns).store.registry.lookup name = some c := by
  induction turns generalizing session with
  | nil => exact hc
  | cons t turns ih =>
    obtain ⟨hforgets, hrest⟩ := hspares
    obtain ⟨hafter, hlookup⟩ := h.after t
    exact ih hafter hrest (hlookup name c hc hforgets)

end Keeping

/-- What was obtained is handed out for its name from then on. -/
theorem registered_of_reply {t : Turn} (ht : t.Obtains name)
    (hreply : session.reply t = .ok (.answer (.collection c))) :
    name ≠ [] ∧ (session.after t).store.registry.lookup name = some c := by
  obtain ⟨script, request⟩ := t
  obtain ⟨v, database, rfl, hname⟩ := ht
  have hobtains : Action.Ensures (Verb.obtain v database).run (session.store.follow script)
      fun r s' => r = .ok (.collection c) → name ≠ [] ∧ s'.registry.lookup name = some c := by
    refine (Action.ensures_obtains _).bind (fun d s' h hr => ?_) fun _ _ _ hr => nomatch hr
    cases hr
    cases h with
    | succeeds named nonempty registered =>
      rw [hname] at named
      cases named
      exact ⟨nonempty, registered⟩
  rw [reply_verb] at hreply
  rw [after_verb]
  refine hobtains ?_
  cases hresult : ((Verb.obtain v database).run.outcome (session.store.follow script)).1 with
  | error fault =>
    rw [hresult] at hreply
    cases hreply
  | ok a =>
    rw [hresult] at hreply
    cases hreply
    rfl

/-- What is handed out for a name is what it is obtained as. -/
theorem reply_of_registered {t : Turn} (ht : t.Obtains name) (hname : name ≠ [])
    (hc : session.store.registry.lookup name = some c) :
    session.reply t = .ok (.answer (.collection c)) := by
  obtain ⟨script, request⟩ := t
  obtain ⟨v, database, rfl, hidentifier⟩ := ht
  have hobtain : (Action.obtain (identifierOf v database)).outcome (session.store.follow script) =
      (.ok c, session.store.follow script) := by
    rw [hidentifier]
    exact Action.outcome_obtain_registered hname hc
  have hrun : (Verb.obtain v database).run.outcome (session.store.follow script) =
      (.ok (.collection c), session.store.follow script) := Action.outcome_bind_ok hobtain
  rw [reply_verb, hrun]
  rfl

/-- In every turn of a session, whatever was asked before and whatever the database did, the collections
that are handed out again have the names that they are handed out for and know that their tables are there.
What a name was obtained as it is obtained as again, unless a collection of that name was dropped or the
store was closed in between; and what fails to obtain or to drop a collection changes none of them. -/
theorem registry_kept (hregistry : session.store.registry = []) (hhandles : session.handles = [])
    (turns : List Turn) :
    let now := session.afterAll turns
    now.store.Kept ∧
    (∀ name c first second between, first.Obtains name → second.Obtains name →
      now.reply first = .ok (.answer (.collection c)) → Spares name (now.after first) between →
      ((now.after first).afterAll between).reply second = .ok (.answer (.collection c))) ∧
    ∀ script v fault, v.ObtainsOrDrops → now.reply ⟨script, .verb v⟩ = .error fault →
      (now.after ⟨script, .verb v⟩).store.registry = now.store.registry ∧
        (now.after ⟨script, .verb v⟩).store.collections = now.store.collections := by
  intro now
  have hstart : session.Keeping := ⟨.of_empty hregistry, .of_nil hhandles⟩
  have hnow : now.Keeping := hstart.afterAll turns
  refine ⟨hnow.kept, fun name c first second between hfirst hsecond hreply hspares => ?_,
    fun script v fault hv hreply => ?_⟩
  · obtain ⟨hname, hc⟩ := registered_of_reply hfirst hreply
    exact reply_of_registered hsecond hname ((hnow.after first).1.lookup_afterAll hspares hc)
  · have hunchanged := Verb.ensures_unchanged (s := now.store.follow script) hv
    rw [reply_verb] at hreply
    rw [after_verb]
    cases hresult : (v.run.outcome (now.store.follow script)).1 with
    | ok a =>
      rw [hresult] at hreply
      cases hreply
    | error fault' =>
      have hheld := hunchanged fault' hresult
      exact ⟨Store.registry_of_holdings hheld, Store.collections_of_holdings hheld⟩

set_option maxRecDepth 4000 in
/-- A collection is used between two times that it is obtained, and then the database refuses to drop
it. -/
theorem registry_kept_refused :
    let obtains : Turn := ⟨{}, .verb (.obtain (.str "a") .null)⟩
    let uses : Turn := ⟨{}, .verb (.on 0 (.count .everything))⟩
    let refusal : Refusal := ⟨"OperationalError", "locked", .int 5, true⟩
    let now := (fresh .sqlite).afterAll [obtains, uses]
    let refused := now.after ⟨{ failure := some (0, refusal) }, .verb (.on 0 .drop)⟩
    now.store.Kept ∧ now.reply obtains = .ok (.answer (.collection 0)) ∧
      refused.store.registry = now.store.registry := by
  intro obtains uses refusal now refused
  have hobtains : obtains.Obtains "a" := ⟨.str "a", .null, rfl, rfl⟩
  have hempty : (fresh .sqlite).store.registry = [] := rfl
  have hspares : Spares "a" ((fresh .sqlite).after obtains) [uses] := by
    refine ⟨?_, trivial⟩
    rintro ⟨v, hv, hforgets⟩
    cases hv
    cases hforgets
  obtain ⟨-, hsame, -⟩ := registry_kept hempty rfl []
  obtain ⟨hkept, -, hunchanged⟩ := registry_kept hempty rfl [obtains, uses]
  refine ⟨hkept, ?_, ?_⟩
  · exact hsame "a" 0 obtains obtains [uses] hobtains hobtains (by rfl) hspares
  · exact (hunchanged { failure := some (0, refusal) } (.on 0 .drop) _ trivial (by rfl)).1

end Session

end DocStore
