import DocStore.Value.Basic

/-!
Equality and order of values. Numbers and truth values compare by value, texts
and sequences item by item, objects without regard to the order of members;
only values of one sort have an order.
-/

namespace DocStore.Value

mutual

/-- Equality of values. -/
def equals : Value → Value → Bool
  | .null, .null => true
  | .str s, .str t => s = t
  | .bytes s, .bytes t => s = t
  | .pattern s, .pattern t => s = t
  | .list xs, .list ys => equalItems xs ys
  | .tuple xs, .tuple ys => equalItems xs ys
  | .object xs, .object ys => xs.length = ys.length && equalMembers xs ys
  | v, w =>
    match v.numeric?, w.numeric? with
    | some m, some n => m.equals n
    | _, _ => false

/-- Equality of sequences item by item. -/
def equalItems : List Value → List Value → Bool
  | [], [] => true
  | v :: vs, w :: ws => v.equals w && equalItems vs ws
  | _, _ => false

/-- Whether each of the first members is equal to one of the second. -/
def equalMembers : List (Text × Value) → List (Text × Value) → Bool
  | [], _ => true
  | (key, v) :: ms, others =>
    (match others.lookup key with
      | some w => v.equals w
      | none => false) && equalMembers ms others

end

mutual

/-- The order of values, when they have one. -/
def isLess? : Value → Value → Option Bool
  | .str s, .str t => some (s.isLess t)
  | .bytes s, .bytes t => some (decide (s < t))
  | .list xs, .list ys => lessItems? xs ys
  | .tuple xs, .tuple ys => lessItems? xs ys
  | v, w => do return (← v.numeric?).isLess (← w.numeric?)

/-- The order of sequences by their first different items, a beginning coming first. -/
def lessItems? : List Value → List Value → Option Bool
  | [], ys => some !ys.isEmpty
  | _ :: _, [] => some false
  | v :: vs, w :: ws => if v.equals w then lessItems? vs ws else v.isLess? w

end

/-- The keys under which values count as the same in a look-up: equality, and every value that is
not a number stands for itself. -/
def sameKey : Value → Value → Bool
  | .float .nan, .float .nan => true
  | v, w => v.equals w

end DocStore.Value
