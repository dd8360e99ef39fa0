import DocStore.Proofs.Dialect.Origin
import DocStore.Proofs.Filter.Member
import DocStore.Sql.Quoting

/-!
How compiling ends. Where the connection quotes every text, a filter has a
clause or is refused as a filter, whatever value it is. A sort order ends so too,
unless it comes to a direction that cannot be looked up among the known ones:
such a direction is not refused but fails in the look-up.
-/

namespace DocStore

/-- A computation that yields a result or refuses its filter or sort order. -/
def Settles {α : Type} (e : Except Fault α) : Prop :=
  (∃ a, e = .ok a) ∨ ∃ refusal, e = .error (.filter refusal)

/-- A computation that yields a result, or refuses an argument of the wrong form. -/
abbrev Checks {α : Type} : Except Fault α → Prop :=
  ComesTo (fun _ => True) fun fault => ∃ a : ArgumentFault, fault = ↑a

theorem ComesTo.settles {α : Type} {P : α → Prop} {e : Except Fault α}
    (h : ComesTo P (fun fault => ∃ refusal, fault = .filter refusal) e) : Settles e := by
  cases e with
  | ok a => exact .inl ⟨a, rfl⟩
  | error fault =>
    obtain ⟨refusal, rfl⟩ := h
    exact .inr ⟨refusal, rfl⟩

theorem Checks.settles {α : Type} {e : Except Fault α} (h : Checks e) : Settles e :=
  (ComesTo.mono h (fun _ => id) fun _ ⟨a, ha⟩ => ⟨.argument a, ha⟩).settles

theorem Settles.bind {α β : Type} {e : Except Fault α} {f : α → Except Fault β} (h : Settles e)
    (hf : ∀ a, e = .ok a → Settles (f a)) : Settles (e >>= f) := by
  rcases h with ⟨a, rfl⟩ | ⟨refusal, rfl⟩
  · exact hf a rfl
  · exact .inr ⟨refusal, rfl⟩

namespace Dialect

open DocStore.Filter

variable {d : Dialect}

/-- A connection that quotes every text has no faults of its own. -/
theorem Refuses.exists_argument (hd : d.QuotesEvery) {fault : Fault} (h : d.Refuses fault) :
    ∃ a : ArgumentFault, fault = ↑a := by
  cases h with
  | argument a => exact ⟨a, rfl⟩
  | @quote t _ h =>
    obtain ⟨l, hl⟩ := hd t
    rw [hl] at h
    cases h

theorem operator_checks (hd : d.QuotesEvery) {op : Operator} (hop : op.isSupported = true)
    (field : Text) (v : Value) : Checks (d.operator op field v) :=
  (operator_writes hop field v).mono (fun _ _ => trivial) fun _ hfault => hfault.exists_argument hd

/-- A filter whose conditions have known operators is refused only for an argument. -/
theorem expression_checks (hd : d.QuotesEvery) {criteria : Value}
    (hkeys : ∀ field key v, HasCondition criteria field key v →
      ∃ op, Operator.parse? key = some op ∧ op.isSupported = true) :
    Checks (d.expression criteria) := by
  refine (expression_comesTo (Q := fun _ => True) (fun a => ⟨a, rfl⟩) (fun _ _ => trivial)
    (fun field key v hm => .inl (hkeys field key v hm))
    fun field key v op _ _ hop => ?_).mono (fun _ _ => trivial) fun _ => id
  exact (operator_checks hd hop field v).mono (fun _ _ _ _ _ _ => trivial) fun _ => id

theorem expression_settles (hd : d.QuotesEvery) (criteria : Value) :
    Settles (d.expression criteria) := by
  refine (expression_comesTo (Q := fun _ => True) (fun a => ⟨.argument a, rfl⟩)
    (fun _ _ => trivial) (fun _ _ _ _ => .inr fun refusal => ⟨refusal, rfl⟩)
    fun field key v op _ _ hop => ?_).settles
  exact (operator_checks hd hop field v).mono (fun _ _ _ _ _ _ => trivial)
    fun _ ⟨a, ha⟩ => ⟨.argument a, ha⟩

theorem direction_checks (name : Text) {v : Value} (hv : v.isKey = true) :
    Checks (direction name v) := by
  simp only [direction]
  split
  · trivial
  · rw [if_pos hv]
    exact ⟨_, rfl⟩

/-- A list or an object is no word and no number, and cannot be looked up. -/
theorem direction_of_not_isKey (name : Text) {v : Value} (hv : v.isKey = false) :
    direction name v = .error (.misuse .wrongType) := by
  cases v with
  | list _ | object _ | tuple _ => simp [direction, Value.number?, hv]
  | _ => cases hv

/-- An item of a sort order is checked, its field first and then its direction, or it fails in the
look-up of the direction. -/
theorem sortItem_cases (hd : d.QuotesEvery) (name : Text) (v : Value) :
    (Checks (d.sortItem name v) ∧ ¬((∃ keys, Path.segments name = .ok keys) ∧ v.isKey = false)) ∨
      (d.sortItem name v = .error (.misuse .wrongType) ∧
        (∃ keys, Path.segments name = .ok keys) ∧ v.isKey = false) := by
  cases hfield : Path.segments name with
  | error fault =>
    rw [sortItem, selector_of_segments_error hfield]
    exact .inl ⟨⟨fault, rfl⟩, by simp⟩
  | ok keys =>
    obtain ⟨selector, hselector⟩ := hd.exists_selector hfield false
    rw [sortItem, ok_bind hselector]
    cases hv : v.isKey with
    | true => exact .inl ⟨(direction_checks name hv).bind fun _ _ => trivial, by simp⟩
    | false =>
      rw [direction_of_not_isKey name hv]
      exact .inr ⟨rfl, ⟨keys, rfl⟩, rfl⟩

/-- A sort order comes to a direction that cannot be looked up, which is a list or an object, or a
tuple that holds one: the fields before it have items, and its own field has a path. -/
def Stumbles (d : Dialect) (sort : Members) : Prop :=
  ∃ before name v after, sort = before ++ (name, v) :: after ∧
    (∀ m ∈ before, ∃ item, d.sortItem m.1 m.2 = .ok item) ∧
    (∃ keys, Path.segments name = .ok keys) ∧ v.isKey = false

/-- Items fail to be looked up when one of them stumbles, and are checked otherwise. -/
theorem mapM_sortItem_cases (hd : d.QuotesEvery) (sort : Members) :
    (Checks (sort.mapM fun m => d.sortItem m.1 m.2) ∧ ¬d.Stumbles sort) ∨
      ((sort.mapM fun m => d.sortItem m.1 m.2) = .error (.misuse .wrongType) ∧
        d.Stumbles sort) := by
  by_cases hstumbles : d.Stumbles sort
  · refine .inr ⟨?_, hstumbles⟩
    obtain ⟨before, name, v, after, hsplit, hbefore, hfield, hv⟩ := hstumbles
    refine mapM_eq_error_iff.mpr ⟨before, (name, v), after, hsplit, hbefore, ?_⟩
    rcases sortItem_cases hd name v with ⟨-, hnot⟩ | ⟨hitem, -⟩
    · exact absurd ⟨hfield, hv⟩ hnot
    · exact hitem
  · refine .inl ⟨?_, hstumbles⟩
    cases hitems : sort.mapM fun m => d.sortItem m.1 m.2 with
    | ok items => trivial
    | error fault =>
      obtain ⟨before, ⟨name, v⟩, after, hsplit, hbefore, hitem⟩ := mapM_eq_error_iff.mp hitems
      rcases sortItem_cases hd name v with ⟨hchecks, -⟩ | ⟨-, hfield, hv⟩
      · exact hchecks.of_error hitem
      · exact absurd ⟨before, name, v, after, hsplit, hbefore, hfield, hv⟩ hstumbles

end Dialect

end DocStore
