import DocStore.Fault.Misuse

/-!
Objects from other values: an object is taken as it is, and a sequence of pairs
becomes an object whose later pairs win.
-/

namespace DocStore

namespace Value

/-- The items that a value is a sequence of: those of a list or tuple, the code points of a text,
the keys of an object, the octets of a row of octets. -/
def sequence? : Value → Option (List Value)
  | .list items => some items
  | .tuple items => some items
  | .str t => some (t.map fun c => .str [c])
  | .object members => some (members.map fun m => .str m.1)
  | .bytes octets => some (octets.map fun b => .int b.toNat)
  | _ => none

/-- The text under which a scalar stands as a key. -/
def keyText? : Value → Option Text
  | .str t => some t
  | .int n => some (Text.ofInt n)
  | .float x => some (x.text "Infinity" "NaN")
  | .bool true => some "true"
  | .bool false => some "false"
  | .null => some "null"
  | _ => none

end Value

namespace Members

/-- The pair that one item of a sequence stands for. -/
def pairOfValue (v : Value) : Except Misuse (Text × Value) :=
  match v.sequence? with
  | none => .error .wrongType
  | some [key, value] =>
    match key.keyText? with
    | some t => .ok (t, value)
    | none => .error .wrongType
  | some _ => .error (.badValue "")

/-- The members that a value stands for. -/
def ofValue (v : Value) : Except Misuse Members :=
  match v with
  | .object ms => .ok ms
  | _ =>
    match v.sequence? with
    | none => .error .wrongType
    | some items => items.foldlM (fun ms item => do
        let (key, value) ← pairOfValue item
        return ms.insert key value) []

end Members

end DocStore
