import DocStore.Proofs.Store.Lifecycle
import DocStore.Proofs.Store.Registry

/-!
Which collections are handed out again. Each is handed out under its own name
and knows that its table is there. What a name is handed out for stays the same
until a collection of that name is dropped or the store is closed.
-/

namespace DocStore

theorem lookup_filter_of_ne {name other : Text} (h : name ≠ other) (entries : List (Text × Nat)) :
    (entries.filter fun entry => entry.1 ≠ other).lookup name = entries.lookup name := by
  induction entries with
  | nil => rfl
  | cons entry entries ih =>
    obtain ⟨key, c⟩ := entry
    by_cases hkey : key = other
    · have hname : (name == key) = false := by
        rw [hkey]
        exact beq_eq_false_iff_ne.mpr h
      rw [List.filter_cons_of_neg (by simp [hkey]), ih, List.lookup_cons, hname]
    · rw [List.filter_cons_of_pos (by simp [hkey]), List.lookup_cons, List.lookup_cons, ih]

namespace Store

variable {P : Statement → Prop} {s s' : Store} {c : Nat} {x : Collection} {name : Text}

/-- Every collection that is handed out again has the name that it is handed out for, and knows that its
table is there. -/
structure Kept (s : Store) : Prop where
  entries : ∀ name c, (name, c) ∈ s.registry →
    ∃ x, s.collections[c]? = some x ∧ x.name = name ∧ x.isReady = true
  nodup : (s.registry.map Prod.fst).Nodup

namespace Kept

theorem of_empty (h : s.registry = []) : s.Kept := by
  constructor
  · rw [h]
    exact nofun
  · rw [h]
    exact .nil

theorem of_holdings (hs : s.Kept) (h : s'.holdings = s.holdings) : s'.Kept := by
  have hcollections : s'.collections = s.collections := collections_of_holdings h
  have hregistry : s'.registry = s.registry := registry_of_holdings h
  constructor
  · rw [hcollections, hregistry]
    exact hs.entries
  · rw [hregistry]
    exact hs.nodup

theorem of_lookup (hs : s.Kept) (h : s.registry.lookup name = some c) :
    ∃ x, s.collections[c]? = some x ∧ x.name = name ∧ x.isReady = true := by
  obtain ⟨before, after, hentries, -⟩ := List.lookup_eq_some_iff.mp h
  exact hs.entries name c (by rw [hentries]; simp)

theorem ready (hs : s.Kept) (c : Nat) : (s.setReady c true).Kept := by
  refine ⟨fun name d hmem => ?_, hs.nodup⟩
  obtain ⟨y, hy, hname, hready⟩ := hs.entries name d hmem
  show ∃ x, (s.collections.modify c fun x => { x with isReady := true })[d]? = some x ∧ _
  rw [List.getElem?_modify, hy]
  by_cases hd : c = d
  · exact ⟨{ y with isReady := true }, by simp [hd], hname, rfl⟩
  · exact ⟨y, by simp [hd], hname, hready⟩

theorem register (hs : s.Kept) (hready : x.isReady = true)
    (hnew : s.registry.lookup x.name = none) : (s.register x).Kept := by
  constructor
  · intro name c hmem
    show ∃ y, (s.collections ++ [x])[c]? = some y ∧ _
    obtain hmem | hmem := List.mem_append.mp hmem
    · obtain ⟨y, hy, hname⟩ := hs.entries name c hmem
      obtain ⟨hc, -⟩ := List.getElem?_eq_some_iff.mp hy
      exact ⟨y, (List.getElem?_append_left hc).trans hy, hname⟩
    · cases List.mem_singleton.mp hmem
      exact ⟨x, List.getElem?_concat_length, rfl, hready⟩
  · have hfresh : x.name ∉ s.registry.map Prod.fst := by
      intro hmem
      obtain ⟨entry, hentry, hname⟩ := List.mem_map.mp hmem
      have hne := List.lookup_eq_none_iff.mp hnew entry hentry
      simp [hname] at hne
    show ((s.registry ++ [(x.name, s.collections.length)]).map Prod.fst).Nodup
    rw [List.map_append]
    exact List.nodup_append.mpr ⟨hs.nodup, List.pairwise_singleton _ _, by
      rintro a ha b hb rfl
      rw [List.mem_singleton.mp hb] at ha
      exact hfresh ha⟩

/-- A collection that was dropped is handed out no more, and no other one is of its name. -/
theorem dropped (hs : s.Kept) (hx : s.collections[c]? = some x) :
    ((s.setReady c false).forget x.name).Kept := by
  constructor
  · intro name d hmem
    obtain ⟨hmem, hne⟩ := List.mem_filter.mp hmem
    obtain ⟨y, hy, rfl, hready⟩ := hs.entries name d hmem
    have hd : c ≠ d := by
      rintro rfl
      rw [hx] at hy
      cases hy
      simp at hne
    refine ⟨y, ?_, rfl, hready⟩
    show (s.collections.modify c fun x => { x with isReady := false })[d]? = some y
    rw [List.getElem?_modify, hy]
    simp [hd]
  · exact hs.nodup.sublist (List.filter_sublist.map Prod.fst)

end Kept

/-- What one step preserves. -/
theorem Step.kept (h : s.Step P s') (hs : s.Kept) : s'.Kept := by
  cases h with
  | aside _ held => exact hs.of_holdings held
  | event => exact hs.of_holdings rfl
  | send => exact hs.of_holdings rfl
  | ready => exact hs.ready _
  | register _ hready hnew => exact hs.register hready hnew

/-- No step hands out another collection for a name that one is handed out for. -/
theorem Step.lookup (h : s.Step P s') (hc : s.registry.lookup name = some c) :
    s'.registry.lookup name = some c := by
  cases h with
  | aside _ held => rw [registry_of_holdings held, hc]
  | event => exact hc
  | send => exact hc
  | ready => exact hc
  | @register x =>
    show (s.registry ++ [(x.name, s.collections.length)]).lookup name = some c
    rw [List.lookup_append, hc]
    rfl

/-- What steps preserve. -/
theorem Steps.kept (h : s.Steps P s') (hs : s.Kept) : s'.Kept := by
  induction h with
  | refl => exact hs
  | tail _ hstep ih => exact hstep.kept ih

theorem Steps.lookup (h : s.Steps P s') (hc : s.registry.lookup name = some c) :
    s'.registry.lookup name = some c := by
  induction h with
  | refl => exact hc
  | tail _ hstep ih => exact hstep.lookup ih

end Store

namespace Action

variable {s : Store}

/-- What obtaining comes to: the collections stay as they are, or one is handed out for a name from now
on. -/
inductive Obtains (s : Store) (v : Value) : Except Fault Nat → Store → Prop where
  | fails {fault : Fault} {s' : Store} (held : s'.holdings = s.holdings) :
    Obtains s v (.error fault) s'
  | succeeds {t : Text} {c : Nat} {s' : Store} (named : v = .str t) (nonempty : t ≠ [])
    (registered : s'.registry.lookup t = some c) : Obtains s v (.ok c) s'

theorem ensures_obtains (v : Value) : Ensures (obtain v) s (Obtains s v) := by
  cases hname : collectionName v with
  | error fault =>
    unfold obtain
    rw [hname]
    cases v.isKey <;> exact .fails rfl
  | ok t =>
    obtain ⟨rfl, hnonempty⟩ := collectionName_eq_ok_iff.mp hname
    unfold Ensures
    rw [outcome_obtain hnonempty]
    cases hlookup : s.registry.lookup t with
    | some c => exact .succeeds rfl hnonempty hlookup
    | none =>
      -- The table is made first, so that nothing is handed out where that fails.
      show Ensures (makeCollection t) s _
      unfold makeCollection
      refine ((keeps_makeTable _).ensures s).bind (fun _ s₁ hheld => ?_) fun _ _ hheld => ?_
      · have hnew : s₁.registry.lookup t = none := by
          rw [Store.registry_of_holdings hheld, hlookup]
        exact .succeeds rfl hnonempty
          (lookup_register (s := s₁) (x := ⟨t, tableName t, true⟩) hnew)
      · exact .fails hheld

end Action

namespace Store

variable {P : Statement → Prop} {s s' s'' : Store} {F F' : Text → Prop}

/-- The collections that are handed out go on to be, but for those of some names; what queries rely on
stays. -/
structure Carries (s : Store) (F : Text → Prop) (s' : Store) : Prop where
  retains : s.Retains s'
  kept : s'.Kept
  lookup : ∀ name c, s.registry.lookup name = some c → ¬ F name →
    s'.registry.lookup name = some c

namespace Carries

theorem of_holdings (hs : s.Kept) (h : s'.holdings = s.holdings) : s.Carries F s' where
  retains := .of_eq (options_of_holdings h) (collections_of_holdings h)
  kept := hs.of_holdings h
  lookup name c hc _ := by rw [registry_of_holdings h, hc]

theorem of_steps (hs : s.Kept) (h : s.Steps P s') : s.Carries F s' :=
  ⟨h.retains, h.kept hs, fun _ _ hc _ => h.lookup hc⟩

theorem trans (h : s.Carries F s') (h' : s'.Carries F s'') : s.Carries F s'' :=
  ⟨h.retains.trans h'.retains, h'.kept, fun name c hc hF => h'.lookup name c (h.lookup name c hc hF) hF⟩

theorem mono (h : s.Carries F s') (hF : ∀ name, F name → F' name) : s.Carries F' s' :=
  ⟨h.retains, h.kept, fun name c hc hF' => h.lookup name c hc fun hname => hF' (hF name hname)⟩

end Carries

end Store

/-- What a drop forgets is the name of the collection that it dropped. -/
theorem Action.Drops.carries {s s' : Store} {c : Nat} {r : Except Fault Unit} (h : Drops s c r s')
    (hs : s.Kept) : s.Carries
      (fun name => r = .ok () ∧ ∃ x, s.collections[c]? = some x ∧ x.name = name) s' := by
  have hretains := h.retains
  cases h with
  | fails _ held => exact .of_holdings hs held
  | @succeeds x _ _ s₁ _ holds _ _ held idles =>
    have holds₁ : s₁.collections[c]? = some x := by
      rw [Store.collections_of_holdings held, holds]
    have hkept := ((hs.of_holdings held).dropped holds₁).of_holdings idles.held
    refine ⟨hretains, hkept, fun name d hd hF => ?_⟩
    have hne : name ≠ x.name := fun hname => hF ⟨rfl, x, holds, hname.symm⟩
    rw [Store.registry_of_holdings idles.held]
    show (s₁.registry.filter fun entry => entry.1 ≠ x.name).lookup name = some d
    rw [lookup_filter_of_ne hne, Store.registry_of_holdings held, hd]

namespace Verb

variable {s : Store}

/-- A verb that ends in some way forgets the collections of a name: it dropped one of them, or closed the
store. -/
inductive Forgets (s : Store) (name : Text) : Verb → Except Fault Answer → Prop where
  | close (r : Except Fault Answer) : Forgets s name .close r
  | drop {c : Nat} {x : Collection} {a : Answer} (hx : s.collections[c]? = some x)
    (hname : x.name = name) : Forgets s name (.on c .drop) (.ok a)
  | dropCollection {a : Answer} : Forgets s name (.dropCollection (.str name)) (.ok a)

open DocStore.Action in
/-- No verb forgets a collection that is handed out but by dropping one of its name or closing the store. -/
theorem ensures_carries (v : Verb) (hs : s.Kept) :
    Ensures v.run s fun r s' => s.Carries (fun name => v.Forgets s name r) s' := by
  have hdrop {c : Nat} {s : Store} (hs : s.Kept) : Ensures (CollectionVerb.drop.run c) s fun r s' =>
      s.Carries (fun name => (∃ a, r = .ok a) ∧ ∃ x, s.collections[c]? = some x ∧ x.name = name) s' := by
    refine ensures_drops.bind (fun _ s' h => ?_) fun fault s' h => ?_
    · exact (h.carries hs).mono fun name ⟨_, hname⟩ => ⟨⟨_, rfl⟩, hname⟩
    · exact (h.carries hs).mono fun name ⟨hr, _⟩ => nomatch hr
  have hkeeps {a : Action Answer} (ha : Keeps Store.holdings a) :
      Ensures a s fun r s' => s.Carries (fun name => v.Forgets s name r) s' :=
    (ha.ensures s).mono fun _ _ h => .of_holdings hs h
  by_cases hv : v.IsOrdinary
  · exact .of_steps hs (Verb.within_run (s := s) hv).1
  cases v with
  | dropCollection v =>
    have hobtain := within_obtain (P := fun _ => True) (s := s) (fun _ _ => trivial) v
    refine ((ensures_obtains v).and hobtain).bind ?_ ?_
    · rintro c s₁ ⟨hobtains, hsteps, -⟩
      have hs₁ := hsteps.kept hs
      cases hobtains with
      | succeeds named _ registered =>
        subst named
        -- The collection that was obtained has the name that it was obtained by.
        obtain ⟨x, hx, hname, -⟩ := hs₁.of_lookup registered
        refine (hdrop hs₁).mono fun r s' h => (Store.Carries.of_steps hs hsteps).trans (h.mono ?_)
        rintro name ⟨⟨a, rfl⟩, y, hy, rfl⟩
        cases hx.symm.trans hy
        rw [hname]
        exact .dropCollection
    · rintro fault s₁ ⟨-, hsteps, -⟩
      exact .of_steps hs hsteps
  | on c verb =>
    cases verb with
    | drop =>
      refine (hdrop hs).mono fun r s' h => h.mono ?_
      rintro name ⟨⟨a, rfl⟩, x, hx, hname⟩
      exact .drop hx hname
    | _ => exact absurd trivial hv
  | connect =>
    have hconnect : Ensures Action.connect s fun _ s' => s.Idles s' := idle_connect s
    refine hconnect.bind (fun _ _ h => ?_) fun _ _ h => ?_
    · exact .of_holdings hs h.held
    · exact .of_holdings hs h.held
  | close =>
    have hclose : Ensures Action.close s fun _ s' => s.Carries (fun _ => True) s' :=
      ensures_close.mono fun _ _ h =>
        ⟨h.2, .of_empty (Store.registry_of_holdings h.1.held), fun _ _ _ h => absurd trivial h⟩
    refine hclose.bind (fun _ _ h => ?_) fun _ _ h => ?_
    · exact h.mono fun name _ => .close _
    · exact h.mono fun name _ => .close _
  | send text => exact hkeeps ((keeps_change _).bind fun _ => .pure _)
  | rows text => exact hkeeps ((keeps_rows _).bind fun _ => .pure _)
  | eachRow text => exact hkeeps ((keeps_eachRow _).bind fun _ => .pure _)
  | _ => exact absurd trivial hv

end Verb

end DocStore
