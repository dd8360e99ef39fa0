import DocStore.Proofs.Value.Members

/-!
Values at paths. A path of keys leads through objects to a value.
-/

namespace DocStore.Value

/-- The value that a path of keys leads to, through objects. -/
def at? : Value → List Text → Option Value
  | v, [] => some v
  | .object ms, key :: path => (Members.get? ms key).bind fun v => v.at? path
  | _, _ :: _ => none

variable {v : Value}

@[simp] theorem at?_nil (v : Value) : v.at? [] = some v := by
  cases v <;> rfl

@[simp] theorem at?_object_cons (ms : Members) (key : Text) (path : List Text) :
    (Value.object ms).at? (key :: path) = (ms.get? key).bind fun v => v.at? path := rfl

theorem at?_cons_of_members?_eq_none (h : v.members? = none) (key : Text) (path : List Text) :
    v.at? (key :: path) = none := by
  cases v with
  | object ms => cases h
  | _ => rfl

theorem at?_append (v : Value) (front rest : List Text) :
    v.at? (front ++ rest) = (v.at? front).bind fun w => w.at? rest := by
  induction front generalizing v with
  | nil => rw [at?_nil]; rfl
  | cons key front ih =>
    cases v with
    | object ms =>
      rw [List.cons_append, at?_object_cons, at?_object_cons, Option.bind_assoc]
      exact Option.bind_congr fun w _ => ih w
    | _ => rfl

end DocStore.Value
