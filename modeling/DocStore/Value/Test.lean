import DocStore.Fault.Misuse
import DocStore.Value.Compare

/-!
Tests of documents. A test asks for a field and perhaps for a relation of its
value to another value; asking what a document has no answer for is a failure.
-/

namespace DocStore

namespace Value

/-- Whether a document has a field: an object has its keys, a list its items, a text its parts. -/
def hasField (document field : Value) : Except Misuse Bool :=
  match document, field with
  | .object ms, .str key => .ok (Members.has ms key)
  | .object _, v => if v.isKey then .ok false else .error .wrongType
  | .list items, v => .ok (items.any v.equals)
  | .tuple items, v => .ok (items.any v.equals)
  | .str t, .str part => .ok (t.includes part)
  | _, _ => .error .wrongType

/-- The value of a field that a document must have. -/
def fieldOf (document : Value) (field : Text) : Except Misuse Value :=
  match document with
  | .object ms =>
    match Members.get? ms field with
    | some v => .ok v
    | none => .error (.missingKey field)
  | _ => .error .wrongType

/-- The remainder of numbers, which has the divisor's sign. -/
def remainder (v divisor : Value) : Except Misuse Value :=
  match v.numeric?, divisor.numeric? with
  | some (.int a), some (.int b) => if b = 0 then .error .zeroDivisor else .ok (.int (a.fmod b))
  | some m, some n =>
    match m.toBinary64?, n.toBinary64? with
    | some x, some y => if y.isZero then .error .zeroDivisor else .ok (.float (x.floorMod y))
    | _, _ => .error .overflow
  | _, _ => .error .wrongType

end Value

namespace Test

/-- Whether the field of a document has a relation; a field that is not there has none. -/
def ofField (document : Value) (field : Text) (relation : Value → Except Misuse Bool) :
    Except Misuse Bool := do
  if ← document.hasField (.str field) then relation (← document.fieldOf field) else return false

/-- Whether a test holds of a document. -/
def holds (t : Test Value) (document : Value) : Except Misuse Bool :=
  match t with
  | .const v => .ok v.isTruthy
  | .has field => document.hasField (.str field)
  | .get field => do return (← document.fieldOf field).isTruthy
  | .eq field other => ofField document field fun v => .ok (v.equals other)
  | .gt field other => ofField document field fun v =>
      match other.isLess? v with
      | some b => .ok b
      | none => .error .wrongType
  | .mod field divisor rest => ofField document field fun v => do
      return (← v.remainder divisor).equals rest

end Test

end DocStore
