import Mathlib.Data.List.Forall2

/-!
Outcomes of what may fail. What succeeds does so step by step, and what the
steps come to, a result or a fault, is what the whole comes to. Two computations
are compared where both succeed: what relates their steps relates what they
yield.
-/

namespace DocStore

theorem exists_of_bind_ok {ε α β : Type} {e : Except ε α} {f : α → Except ε β} {b : β}
    (h : (e >>= f) = .ok b) : ∃ a, e = .ok a ∧ f a = .ok b := by
  cases e with
  | error fault => cases h
  | ok a => exact ⟨a, rfl, h⟩

theorem exists_of_map_ok {ε α β : Type} {e : Except ε α} {f : α → β} {b : β}
    (h : f <$> e = .ok b) : ∃ a, e = .ok a ∧ f a = b := by
  cases e with
  | error fault => cases h
  | ok a => exact ⟨a, rfl, Except.ok.inj h⟩

theorem ok_bind {ε α β : Type} {e : Except ε α} {a : α} (h : e = .ok a) (f : α → Except ε β) :
    (e >>= f) = f a := by
  rw [h]
  rfl

/-- What fails yields nothing. -/
theorem forall_of_error {ε α : Type} {fault : ε} {P : α → Prop} :
    ∀ a, (.error fault : Except ε α) = .ok a → P a := by
  intro a h
  cases h

/-- Computations over a list that all succeed yield their results in order. -/
theorem forall₂_of_mapM_ok {ε α β : Type} {f : α → Except ε β} {as : List α} {bs : List β}
    (h : as.mapM f = .ok bs) : List.Forall₂ (fun a b => f a = .ok b) as bs := by
  induction as generalizing bs with
  | nil =>
    cases h
    exact .nil
  | cons a as ih =>
    rw [List.mapM_cons] at h
    obtain ⟨b, hb, h⟩ := exists_of_bind_ok h
    obtain ⟨bs, hbs, ⟨⟩⟩ := exists_of_bind_ok h
    exact .cons hb (ih hbs)

theorem exists_of_mem_mapM_ok {ε α β : Type} {f : α → Except ε β} {as : List α} {bs : List β}
    (h : as.mapM f = .ok bs) {b : β} (hb : b ∈ bs) : ∃ a ∈ as, f a = .ok b := by
  have hforall := forall₂_of_mapM_ok h
  clear h
  induction hforall with
  | nil => cases hb
  | cons hab _ ih =>
    obtain rfl | hb := List.mem_cons.mp hb
    · exact ⟨_, List.mem_cons_self, hab⟩
    · obtain ⟨a, ha, hab⟩ := ih hb
      exact ⟨a, List.mem_cons_of_mem _ ha, hab⟩

theorem exists_ok_of_mapM_ok {ε α β : Type} {f : α → Except ε β} {as : List α} {bs : List β}
    (h : as.mapM f = .ok bs) {a : α} (ha : a ∈ as) : ∃ b, f a = .ok b ∧ b ∈ bs := by
  have hforall := forall₂_of_mapM_ok h
  clear h
  induction hforall with
  | nil => cases ha
  | cons hab _ ih =>
    obtain rfl | ha := List.mem_cons.mp ha
    · exact ⟨_, hab, List.mem_cons_self⟩
    · obtain ⟨b, hb, hmem⟩ := ih ha
      exact ⟨b, hb, List.mem_cons_of_mem _ hmem⟩

theorem exists_mapM_ok {ε α β : Type} {f : α → Except ε β} {as : List α}
    (h : ∀ a ∈ as, ∃ b, f a = .ok b) : ∃ bs, as.mapM f = .ok bs := by
  induction as with
  | nil => exact ⟨[], rfl⟩
  | cons a as ih =>
    obtain ⟨⟨b, hb⟩, has⟩ := List.forall_mem_cons.mp h
    obtain ⟨bs, hbs⟩ := ih has
    exact ⟨b :: bs, by rw [List.mapM_cons, hb, hbs]; rfl⟩

/-- Computations over a list fail at the first that does. -/
theorem mapM_eq_error_iff {ε α β : Type} {f : α → Except ε β} {as : List α} {fault : ε} :
    as.mapM f = .error fault ↔ ∃ before a after, as = before ++ a :: after ∧
      (∀ c ∈ before, ∃ b, f c = .ok b) ∧ f a = .error fault := by
  induction as with
  | nil => simp [pure, Except.pure]
  | cons c as ih =>
    rw [List.mapM_cons]
    cases hc : f c with
    | error other =>
      constructor
      · rintro ⟨⟩
        exact ⟨[], c, as, rfl, by simp, hc⟩
      · rintro ⟨before, a, after, hsplit, hbefore, ha⟩
        cases before with
        | nil =>
          cases hsplit
          rw [ha] at hc
          cases hc
          rfl
        | cons _ before =>
          cases hsplit
          obtain ⟨b, hb⟩ := hbefore c List.mem_cons_self
          rw [hc] at hb
          cases hb
    | ok b =>
      have hrest : (do return b :: (← as.mapM f)) = .error fault ↔ as.mapM f = .error fault := by
        cases as.mapM f with
        | error other => exact Iff.rfl
        | ok bs => exact iff_of_false (fun h => nomatch h) fun h => nomatch h
      refine hrest.trans (ih.trans ⟨?_, ?_⟩)
      · rintro ⟨before, a, after, rfl, hbefore, ha⟩
        exact ⟨c :: before, a, after, rfl, List.forall_mem_cons.mpr ⟨⟨b, hc⟩, hbefore⟩, ha⟩
      · rintro ⟨before, a, after, hsplit, hbefore, ha⟩
        cases before with
        | nil =>
          cases hsplit
          rw [ha] at hc
          cases hc
        | cons _ before =>
          cases hsplit
          exact ⟨before, a, after, rfl, (List.forall_mem_cons.mp hbefore).2, ha⟩

theorem mapM_congr {ε α β : Type} {f g : α → Except ε β} {as : List α} (h : ∀ a ∈ as, f a = g a) :
    as.mapM f = as.mapM g := by
  induction as with
  | nil => rfl
  | cons a as ih =>
    obtain ⟨ha, has⟩ := List.forall_mem_cons.mp h
    rw [List.mapM_cons, List.mapM_cons, ha, ih has]

/-- What every step of a fold that succeeds preserves, the fold does. -/
theorem foldlM_preserves {ε α β : Type} {P : β → Prop} {f : β → α → Except ε β} {as : List α}
    {b c : β} (hf : ∀ a ∈ as, ∀ b c, P b → f b a = .ok c → P c) (hb : P b)
    (h : as.foldlM f b = .ok c) : P c := by
  induction as generalizing b with
  | nil =>
    cases h
    exact hb
  | cons a as ih =>
    rw [List.foldlM_cons] at h
    obtain ⟨d, hd, h⟩ := exists_of_bind_ok h
    obtain ⟨ha, has⟩ := List.forall_mem_cons.mp hf
    exact ih has (ha b d hb hd) h

/-- A computation comes to a result with one property, or to a fault with another. -/
def ComesTo {ε α : Type} (P : α → Prop) (R : ε → Prop) : Except ε α → Prop
  | .ok a => P a
  | .error fault => R fault

namespace ComesTo

variable {ε α β : Type} {P : α → Prop} {Q : β → Prop} {R : ε → Prop} {e : Except ε α}

theorem pure {a : α} (h : P a) : ComesTo P R (Pure.pure a : Except ε α) := h

theorem bind {f : α → Except ε β} (h : ComesTo P R e) (hf : ∀ a, P a → ComesTo Q R (f a)) :
    ComesTo Q R (e >>= f) := by
  cases e with
  | error fault => exact h
  | ok a => exact hf a h

theorem map {f : α → β} (h : ComesTo P R e) (hf : ∀ a, P a → Q (f a)) : ComesTo Q R (f <$> e) := by
  cases e with
  | error fault => exact h
  | ok a => exact hf a h

/-- Computations over a list, item by item. -/
theorem mapM {f : β → Except ε α} {bs : List β} (h : ∀ b ∈ bs, ComesTo P R (f b)) :
    ComesTo (fun as => ∀ a ∈ as, P a) R (bs.mapM f) := by
  induction bs with
  | nil => exact fun a ha => nomatch ha
  | cons b bs ih =>
    obtain ⟨hb, hbs⟩ := List.forall_mem_cons.mp h
    rw [List.mapM_cons]
    exact hb.bind fun a ha => (ih hbs).bind fun as has => pure (List.forall_mem_cons.mpr ⟨ha, has⟩)

theorem mono {P' : α → Prop} {R' : ε → Prop} (h : ComesTo P R e) (hP : ∀ a, P a → P' a)
    (hR : ∀ fault, R fault → R' fault) : ComesTo P' R' e := by
  cases e with
  | error fault => exact hR fault h
  | ok a => exact hP a h

theorem of_ok {a : α} (h : ComesTo P R e) (he : e = .ok a) : P a := by
  subst he
  exact h

theorem of_error {fault : ε} (h : ComesTo P R e) (he : e = .error fault) : R fault := by
  subst he
  exact h

end ComesTo

/-- Whenever two computations both succeed, what they yield is related. -/
def BothYield {ε ε' α β : Type} (R : α → β → Prop) (e : Except ε α) (e' : Except ε' β) : Prop :=
  ∀ a b, e = .ok a → e' = .ok b → R a b

namespace BothYield

variable {ε α β γ δ : Type} {R : α → β → Prop} {Q : γ → δ → Prop}

theorem pure {a : α} {b : β} (h : R a b) : BothYield R (.ok a : Except ε α) (.ok b : Except ε β) := by
  intro a' b' ha hb
  cases ha
  cases hb
  exact h

theorem error_left (fault : ε) (e : Except ε β) : BothYield R (.error fault) e :=
  fun _ _ h _ => nomatch h

theorem error_right (e : Except ε α) (fault : ε) : BothYield R e (.error fault : Except ε β) :=
  fun _ _ _ h => nomatch h

theorem bind {e : Except ε α} {e' : Except ε β} {f : α → Except ε γ} {g : β → Except ε δ}
    (h : BothYield R e e') (hf : ∀ a b, R a b → BothYield Q (f a) (g b)) :
    BothYield Q (e >>= f) (e' >>= g) := by
  intro c d hc hd
  cases e with
  | error fault => cases hc
  | ok a =>
    cases e' with
    | error fault => cases hd
    | ok b => exact hf a b (h a b rfl rfl) c d hc hd

theorem map {e : Except ε α} {e' : Except ε β} {f : α → γ} {g : β → δ}
    (h : BothYield R e e') (hf : ∀ a b, R a b → Q (f a) (g b)) :
    BothYield Q (f <$> e) (g <$> e') := by
  intro c d hc hd
  cases e with
  | error fault => cases hc
  | ok a =>
    cases e' with
    | error fault => cases hd
    | ok b =>
      cases hc
      cases hd
      exact hf a b (h a b rfl rfl)

/-- Computations over two lists, step by step. -/
theorem mapM {S : γ → δ → Prop} {f : γ → Except ε α} {g : δ → Except ε β} {cs : List γ}
    {ds : List δ} (h : List.Forall₂ S cs ds) (hf : ∀ c d, S c d → BothYield R (f c) (g d)) :
    BothYield (fun as bs => List.Forall₂ R as bs ∧ as.length = cs.length) (cs.mapM f) (ds.mapM g) := by
  induction h with
  | nil => exact pure ⟨.nil, rfl⟩
  | cons hcd _ ih =>
    simp only [List.mapM_cons]
    refine (hf _ _ hcd).bind fun a b hab => ?_
    exact ih.bind fun as bs ⟨hrest, hlength⟩ => pure ⟨.cons hab hrest, by simp [hlength]⟩

end BothYield

end DocStore
