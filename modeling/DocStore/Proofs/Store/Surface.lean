import DocStore.Proofs.Dialect.Consults
import DocStore.Proofs.Store.Library

/-!
How failures surface. An action is run beside the library, and ends in one of
three ways: the library raised no error and no statement is blamed; or it
raised one, which is the result of the action, was logged, and was followed by
nothing but the closing of cursors; or the connection would not quote a text,
which is the result and was logged, and nothing more was done. There is one
rule for each way of putting actions together, for actions on stores and for
actions on sessions alike.
-/

namespace DocStore

/-- What holds a store: the store itself, or a session with what was handed out. -/
class Holder (σ : Type) where
  store : σ → Store
  /-- The same with a connection that quotes every text. -/
  fluent : σ → σ
  /-- Answers that are still read end as the library says. -/
  Linked : σ → Library → Prop
  store_fluent : ∀ x, store (fluent x) = (store x).fluent
  linked_fluent : ∀ {x w}, Linked x w → Linked (fluent x) w

instance : Holder Store where
  store := id
  fluent := Store.fluent
  Linked _ _ := True
  store_fluent _ := rfl
  linked_fluent := id

/-- What changes a holder of a store and may fail. -/
abbrev Holding (σ α : Type) : Type := ExceptT Fault (StateM σ) α

open Holder

variable {σ α β : Type}

namespace Holding

/-- What an action comes to: its result, and the holder after it. -/
def outcome (a : Holding σ α) (x : σ) : Except Fault α × σ := (a.run.run x).run

variable {a : Holding σ α} {f : α → Holding σ β} {x x' : σ}

theorem outcome_bind_ok {y : α} (h : outcome a x = (.ok y, x')) :
    outcome (a >>= f) x = outcome (f y) x' := by
  show ((ExceptT.bindCont f (outcome a x).1).run (outcome a x).2).run = _
  rw [h]
  rfl

theorem outcome_bind_error {fault : Fault} (h : outcome a x = (.error fault, x')) :
    outcome (a >>= f) x = (.error fault, x') := by
  show ((ExceptT.bindCont f (outcome a x).1).run (outcome a x).2).run = _
  rw [h]
  rfl

end Holding

open Holding

variable [Holder σ]

/-- The library is that of the store, and answers that are still read end as it says. -/
structure Tracks (x : σ) (w : Library) : Prop where
  backs : w.Backs (store x)
  linked : Linked x w

theorem Tracks.of_eq {s s' : Store} {w : Library} (h : Tracks s w) (hoptions : s'.options = s.options)
    (hscript : s'.script = s.script) (hsent : s'.sent = s.sent) (hopened : s'.opened = s.opened) :
    Tracks s' w := ⟨h.backs.of_eq hoptions hscript hsent hopened, trivial⟩

theorem Tracks.fluent {x : σ} {w : Library} (h : Tracks x w) : Tracks (fluent x) w where
  backs := by
    rw [store_fluent]
    exact ⟨h.backs.engine, h.backs.failure, h.backs.sent, h.backs.replies, h.backs.fresh⟩
  linked := linked_fluent h.linked

/-- How a run ends that did some events and logged some messages: with what result and holder, and with
what result and holder where the connection quotes every text. -/
inductive Ending (w : Library) (s : Store) (es : List Event) (calls : List LogCall)
    (p o : Except Fault α × σ) : Prop where
  /-- The library raised nothing, no statement is blamed, and it does not matter how the connection
  quotes. An error is logged only where the connection could not be opened, and names no statement. -/
  | quiet (raised : w.raised es = []) (blameless : ∀ f, p.1 ≠ .error (.statement f))
    (calm : Calm calls ∨ Wordless calls ∧ ∃ f, p.1 = .error (.connect f)) (same : o = (p.1, fluent p.2))
  /-- The library raised an error, which is the result and was logged, and only cursors were closed
  after it. -/
  | raised {before closings : List Event} {e : Event} {sql : Text} {refusal : Refusal}
    {earlier : List LogCall} (parts : es = before ++ e :: closings)
    (nothing : w.raised before = []) (raises : (w.afterAll before).raises e = some (sql, refusal))
    (closings : ∀ e ∈ closings, ∃ cursor, e = .close cursor)
    (result : p.1 = .error (s.refused sql refusal))
    (logged : calls = earlier ++ s.complaints (s.refused sql refusal)) (calm : Calm earlier)
  /-- The connection would not quote a text, which is the result and was logged. What was done until
  then is what is done first where the connection quotes. -/
  | unquoted {refusal : Refusal} {earlier : List LogCall} (quoting : s.quotingRefusal = some refusal)
    (raised : w.raised es = [])
    (result : p.1 = .error (s.refused s.engine.quotingMark refusal))
    (logged : calls = earlier ++ s.complaints (s.refused s.engine.quotingMark refusal))
    (calm : Calm earlier) (done : (store p.2).trace <+: (store o.2).trace)

/-- What a run did and logged and how it ended; where it did not fail, its result and the library after
it meet a condition. -/
structure Surfacing (w : Library) (x : σ) (Q : α → Library → Prop) (es : List Event)
    (calls : List LogCall) (p o : Except Fault α × σ) : Prop where
  acts : (store x).Acts es calls (store p.2)
  tracks : Tracks p.2 (w.afterAll es)
  later : w.Later (w.afterAll es)
  ending : Ending w (store x) es calls p o
  holds : ∀ y, p.1 = .ok y → Q y (w.afterAll es)

/-- Wherever the library stands like this, the failures that an action meets surface. -/
def Surfaces (a : Holding σ α) (w : Library) (Q : α → Library → Prop) : Prop :=
  ∀ x, Tracks x w → ∃ es calls, Surfacing w x Q es calls (outcome a x) (outcome a (fluent x))

/-- The failures that an action meets surface. -/
structure Candid (a : Holding σ α) : Prop where
  surfaces : ∀ w, Surfaces a w fun _ _ => True

/-- A run that leaves the library as a given one. -/
theorem Surfacing.of_after {w w' : Library} {x : σ} {P : α → Library → Prop} {es : List Event}
    {calls : List LogCall} {p o : Except Fault α × σ} (hafter : w.afterAll es = w')
    (hacts : (store x).Acts es calls (store p.2)) (htracks : Tracks p.2 w') (hlater : w.Later w')
    (hending : Ending w (store x) es calls p o) (hP : ∀ y, p.1 = .ok y → P y w') :
    Surfacing w x P es calls p o := by
  subst hafter
  exact ⟨hacts, htracks, hlater, hending, hP⟩

namespace Ending

variable {w : Library} {s s' : Store} {es es' : List Event} {calls calls' : List LogCall}
  {p : Except Fault α × σ} {r o : Except Fault β × σ}

/-- A run that goes on after events that raised nothing ends as the rest of it does. -/
theorem prepend (hacts : s.Acts es calls s') (hraised : w.raised es = []) (hcalm : Calm calls)
    (h : Ending (w.afterAll es) s' es' calls' r o) :
    Ending w s (es ++ es') (calls ++ calls') r o := by
  have hnothing (before : List Event) (h : (w.afterAll es).raised before = []) :
      w.raised (es ++ before) = [] := by
    rw [Library.raised_append, hraised, h, List.append_nil]
  have hcomplained {earlier : List LogCall} {fault : Fault}
      (h : calls' = earlier ++ s'.complaints fault) :
      calls ++ calls' = (calls ++ earlier) ++ s.complaints fault := by
    rw [h, hacts.complaints, List.append_assoc]
  cases h with
  | quiet hraised' hblameless hcalm' hsame =>
    have hwordless : Wordless calls := Store.wordless_of_calm hacts.tells hcalm
    exact .quiet (hnothing _ hraised') hblameless
      (hcalm'.imp hcalm.append (And.imp_left hwordless.append)) hsame
  | @raised before closings e sql refusal earlier hparts hbefore hraises hclosings hresult hlogged
      hcalm' =>
    rw [hacts.refused] at hresult hlogged
    have hparts' : es ++ es' = (es ++ before) ++ e :: closings := by rw [hparts, List.append_assoc]
    have hraises' : (w.afterAll (es ++ before)).raises e = some (sql, refusal) := by
      rw [Library.afterAll_append]
      exact hraises
    exact .raised hparts' (hnothing _ hbefore) hraises' hclosings hresult (hcomplained hlogged)
      (hcalm.append hcalm')
  | @unquoted refusal earlier hquoting hraised' hresult hlogged hcalm' hdone =>
    rw [hacts.quotingRefusal] at hquoting
    rw [hacts.refused, hacts.engine] at hresult hlogged
    exact .unquoted hquoting (hnothing _ hraised') hresult (hcomplained hlogged)
      (hcalm.append hcalm') hdone

/-- A run that fails ends as it does whatever was to come after it. -/
theorem stopped {fault : Fault} {x : σ} {o : Except Fault α × σ} {o' : Except Fault β × σ}
    (h : Ending w s es calls ((.error fault, x) : Except Fault α × σ) o)
    (herror : ∀ x', o = (.error fault, x') → o' = (.error fault, x'))
    (hdone : (store o.2).trace <+: (store o'.2).trace) :
    Ending w s es calls ((.error fault, x) : Except Fault β × σ) o' := by
  cases h with
  | quiet hraised hblameless hcalm hsame =>
    refine .quiet hraised ?_ (hcalm.imp_right (And.imp_right ?_)) (herror _ hsame)
    · rintro f ⟨⟩
      exact hblameless f rfl
    · rintro ⟨f, ⟨⟩⟩
      exact ⟨f, rfl⟩
  | raised hparts hbefore hraises hclosings hresult hlogged hcalm =>
    cases hresult
    exact .raised hparts hbefore hraises hclosings rfl hlogged hcalm
  | unquoted hquoting hraised hresult hlogged hcalm hdone' =>
    cases hresult
    exact .unquoted hquoting hraised rfl hlogged hcalm (hdone'.trans hdone)

end Ending

/-- A run that says no word to the library or to the journal. -/
theorem Surfacing.still {w : Library} {x : σ} {P : α → Library → Prop} {p o : Except Fault α × σ}
    (hacts : (store x).Acts [] [] (store p.2)) (htracks : Tracks p.2 w)
    (hblameless : ∀ f, p.1 ≠ .error (.statement f)) (hsame : o = (p.1, fluent p.2))
    (hP : ∀ y, p.1 = .ok y → P y w) : Surfacing w x P [] [] p o :=
  ⟨hacts, htracks, .refl w, .quiet rfl hblameless (.inl calm_nil) hsame, hP⟩

namespace Surfaces

variable {w w' : Library} {a : Holding σ α} {f : α → Holding σ β} {P : α → Library → Prop}
  {Q : β → Library → Prop}

theorem pure {y : α} (h : P y w) : Surfaces (Pure.pure y : Holding σ α) w P := by
  intro x hx
  refine ⟨[], [], .still (.refl _) hx nofun rfl ?_⟩
  rintro _ ⟨⟩
  exact h

theorem throw {fault : Fault} (h : fault.isStatement = false) :
    Surfaces (throw fault : Holding σ α) w P := by
  intro x hx
  refine ⟨[], [], .still (.refl _) hx ?_ rfl nofun⟩
  rintro f ⟨⟩
  cases h

theorem mono {P' : α → Library → Prop} (ha : Surfaces a w P) (h : ∀ y w', P y w' → P' y w') :
    Surfaces a w P' := by
  intro x hx
  obtain ⟨es, calls, h'⟩ := ha x hx
  exact ⟨es, calls, h'.acts, h'.tracks, h'.later, h'.ending, fun y hy => h y _ (h'.holds y hy)⟩

/-- The failures of two actions surface, one after the other. -/
theorem bind (ha : Surfaces a w P)
    (hf : ∀ y w', w.Later w' → P y w' → Surfaces (f y) w' Q) : Surfaces (a >>= f) w Q := by
  intro x hx
  obtain ⟨es, calls, h⟩ := ha x hx
  rcases hrun : outcome a x with ⟨r, x'⟩
  rw [hrun] at h
  cases r with
  | ok y =>
    -- Only a quiet run comes to a value, and it comes to the same one where texts are quoted.
    have hquiet : w.raised es = [] ∧ Calm calls ∧ outcome a (fluent x) = (.ok y, fluent x') := by
      rcases h.ending with ⟨hraised, -, hcalm | ⟨-, _, ⟨⟩⟩, hsame⟩ | ⟨-, -, -, -, ⟨⟩, -, -⟩ |
        ⟨-, -, ⟨⟩, -, -, -⟩
      exact ⟨hraised, hcalm, hsame⟩
    obtain ⟨hraised, hcalm, hsame⟩ := hquiet
    obtain ⟨es', calls', h'⟩ := hf y _ h.later (h.holds y rfl) x' h.tracks
    refine ⟨es ++ es', calls ++ calls', ?_⟩
    rw [outcome_bind_ok hrun, outcome_bind_ok hsame]
    exact .of_after Library.afterAll_append (h.acts.trans h'.acts) h'.tracks (h.later.trans h'.later)
      (.prepend h.acts hraised hcalm h'.ending) h'.holds
  | error fault =>
    refine ⟨es, calls, ?_⟩
    rw [outcome_bind_error hrun]
    refine ⟨h.acts, h.tracks, h.later, h.ending.stopped (fun x' => outcome_bind_error) ?_, nofun⟩
    -- Where texts are quoted the run may go on, but it never takes back what was done.
    obtain ⟨es', calls', h'⟩ := ha (fluent x) hx.fluent
    rcases hrun' : outcome a (fluent x) with ⟨r', x₁⟩
    rw [hrun'] at h'
    cases r' with
    | ok y =>
      obtain ⟨es'', calls'', h''⟩ := hf y _ h'.later (h'.holds y rfl) x₁ h'.tracks
      rw [outcome_bind_ok hrun']
      exact h''.acts.prefix_trace
    | error fault' =>
      refine ⟨[], ?_⟩
      rw [outcome_bind_error hrun', List.append_nil]

theorem get_bind {f : σ → Holding σ β} (hfluent : ∀ x, f (fluent x) = f x)
    (hf : ∀ x, Tracks x w → Surfaces (f x) w Q) : Surfaces (get >>= f) w Q := by
  intro x hx
  obtain ⟨es, calls, h⟩ := hf x hx x hx
  refine ⟨es, calls, ?_⟩
  show Surfacing w x Q es calls (outcome (f x) x) (outcome (f (fluent x)) (fluent x))
  rw [hfluent]
  exact h

end Surfaces

namespace Candid

variable {a : Holding σ α} {f : α → Holding σ β}

theorem of_surfaces {Q : Library → α → Library → Prop} (h : ∀ w, Surfaces a w (Q w)) : Candid a :=
  ⟨fun w => (h w).mono fun _ _ _ => trivial⟩

theorem pure (y : α) : Candid (Pure.pure y : Holding σ α) := ⟨fun _ => .pure trivial⟩

theorem throw {fault : Fault} (h : fault.isStatement = false) :
    Candid (throw fault : Holding σ α) := ⟨fun _ => .throw h⟩

theorem bind (ha : Candid a) (hf : ∀ y, Candid (f y)) : Candid (a >>= f) :=
  ⟨fun w => (ha.surfaces w).bind fun y w' _ _ => (hf y).surfaces w'⟩

theorem get_bind {f : σ → Holding σ β} (hfluent : ∀ x, f (fluent x) = f x)
    (hf : ∀ x, Candid (f x)) : Candid (get >>= f) :=
  ⟨fun w => .get_bind hfluent fun x _ => (hf x).surfaces w⟩

end Candid

end DocStore
