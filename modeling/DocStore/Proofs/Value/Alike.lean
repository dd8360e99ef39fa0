import DocStore.Filter.Operator
import DocStore.Value.Basic
import Mathlib.Data.List.Forall2

/-!
Values that differ in texts. Two values are alike when they are equal but for
what their texts and patterns say, and for what becomes of `$exists` none of
this makes a difference.
-/

namespace DocStore.Value

/-- Two values that differ in nothing but the contents of texts. What stands under `$exists` counts
as true in both or in neither. -/
inductive Alike : Value → Value → Prop where
  | same (v : Value) : Alike v v
  | str (t u : Text) : Alike (.str t) (.str u)
  | pattern (t u : Text) : Alike (.pattern t) (.pattern u)
  | list {vs ws : List Value} (h : List.Forall₂ Alike vs ws) : Alike (.list vs) (.list ws)
  | tuple {vs ws : List Value} (h : List.Forall₂ Alike vs ws) : Alike (.tuple vs) (.tuple ws)
  | object {ms ns : Members} (hkeys : ms.keys = ns.keys)
      (h : List.Forall₂ Alike (ms.map Prod.snd) (ns.map Prod.snd))
      (hpresent : List.Forall₂ (fun m n => Operator.parse? m.1 = some .present →
        m.2.isTruthy = n.2.isTruthy) ms ns) : Alike (.object ms) (.object ns)

namespace Alike

variable {v w : Value}

theorem isNull_eq (h : Alike v w) : v.isNull = w.isNull := by cases h <;> rfl

theorem isScalar_eq (h : Alike v w) : v.isScalar = w.isScalar := by cases h <;> rfl

theorem number?_eq (h : Alike v w) : v.number? = w.number? := by cases h <;> rfl

theorem isNumber_eq (h : Alike v w) : v.isNumber = w.isNumber := by
  simp only [isNumber, h.number?_eq]

theorem ne_object (h : Alike v w) (hv : ∀ ms, v ≠ .object ms) : ∀ ns, w ≠ .object ns := by
  rintro ns rfl
  cases h with
  | same => exact hv ns rfl
  | object _ _ _ => exact hv _ rfl

/-- The members of two objects that are alike. -/
theorem members {ms ns : Members} (h : Alike (.object ms) (.object ns)) :
    List.Forall₂ (fun m n => m.1 = n.1 ∧ Alike m.2 n.2 ∧
      (Operator.parse? m.1 = some .present → m.2.isTruthy = n.2.isTruthy)) ms ns := by
  cases h with
  | same => exact List.forall₂_same.mpr fun m _ => ⟨rfl, .same _, fun _ => rfl⟩
  | object hkeys h hpresent =>
    induction hpresent with
    | nil => exact .nil
    | cons hmn _ ih =>
      obtain ⟨hkey, hkeys⟩ := List.cons_eq_cons.mp hkeys
      cases h with
      | cons hvalue h => exact .cons ⟨hkey, hvalue, hmn⟩ (ih hkeys h)

/-- Both values are lists of values that are alike, or none is a list. -/
theorem items? (h : Alike v w) : Option.Rel (List.Forall₂ Alike) v.items? w.items? := by
  have hrefl (vs : List Value) : List.Forall₂ Alike vs vs := List.forall₂_same.mpr fun v _ => .same v
  cases h with
  | same v => cases v <;> constructor <;> exact hrefl _
  | list h => exact .some h
  | tuple h => exact .some h
  | str => exact .none
  | pattern => exact .none
  | object => exact .none

end Alike

end DocStore.Value
