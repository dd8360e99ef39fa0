import DocStore.Number.Basic

/-!
Values: what filters, documents, options and rows are made of. Objects keep
their members in the order of insertion, and integers and floats differ. Beside
the values that a document can hold there are tuples, octets, compiled
patterns and tests, which callers may pass where a filter is expected.
-/

namespace DocStore

/-- A test that a caller makes of a document. -/
inductive Test (α : Type) where
  /-- The truth of one value, whatever the document. -/
  | const (value : α)
  /-- The document has the field. -/
  | has (field : Text)
  /-- The truth of a field that the document must have. -/
  | get (field : Text)
  /-- The field is equal to a value. -/
  | eq (field : Text) (value : α)
  /-- The field is greater than a value. -/
  | gt (field : Text) (value : α)
  /-- The field leaves the given remainder. -/
  | mod (field : Text) (divisor remainder : α)

/-- A dynamic value. -/
inductive Value where
  | null
  | bool (b : Bool)
  | int (n : Int)
  | float (x : Binary64)
  | str (t : Text)
  | list (items : List Value)
  | tuple (items : List Value)
  | object (members : List (Text × Value))
  | bytes (octets : List UInt8)
  | pattern (source : Text)
  | test (t : Test Value)

instance : Inhabited Value := ⟨.null⟩

/-- The members of an object, in the order of insertion. -/
abbrev Members := List (Text × Value)

namespace Members

/-- The value of a key. -/
def get? (ms : Members) (key : Text) : Option Value := ms.lookup key

/-- Whether a key is there. -/
def has (ms : Members) (key : Text) : Bool := ms.any fun m => m.1 = key

/-- The members with a key set: in its place when it is there, at the end when it is new. -/
def insert : Members → Text → Value → Members
  | [], key, v => [(key, v)]
  | (k, w) :: ms, key, v => if k = key then (k, v) :: ms else (k, w) :: insert ms key v

/-- The members without a key. -/
def erase (ms : Members) (key : Text) : Members := ms.filter fun m => m.1 ≠ key

/-- The members overlaid with others, each set in turn. -/
def overlay (ms others : Members) : Members :=
  others.foldl (fun acc m => acc.insert m.1 m.2) ms

/-- One member. -/
def one (key : Text) (v : Value) : Members := [(key, v)]

/-- One member, or none. -/
def optional (key : Text) : Option Value → Members
  | some v => one key v
  | none => []

/-- The keys in order. -/
def keys (ms : Members) : List Text := ms.map (·.1)

@[simp] theorem get?_nil (key : Text) : get? [] key = none := rfl

theorem get?_cons (m : Text × Value) (ms : Members) (key : Text) :
    get? (m :: ms) key = if key = m.1 then some m.2 else get? ms key := by
  obtain ⟨k, v⟩ := m
  simp only [get?, List.lookup_cons]
  by_cases h : key = k
  · simp [h]
  · simp [h, beq_eq_false_iff_ne.mpr h]

theorem get?_insert (ms : Members) (key other : Text) (v : Value) :
    (ms.insert key v).get? other = if other = key then some v else ms.get? other := by
  induction ms with
  | nil => simp [insert, get?_cons]
  | cons m ms ih =>
    obtain ⟨k, w⟩ := m
    simp only [insert]
    by_cases h : k = key
    · simp only [h, if_true, get?_cons]
      split <;> simp_all
    · simp only [h, if_false, get?_cons, ih]
      by_cases h' : other = k <;> by_cases h'' : other = key <;> simp_all

end Members

namespace Value

/-- The name of a value's type, as messages give it. -/
def typeName : Value → Text
  | .null => "NoneType"
  | .bool _ => "bool"
  | .int _ => "int"
  | .float _ => "float"
  | .str _ => "str"
  | .list _ => "list"
  | .tuple _ => "tuple"
  | .object _ => "dict"
  | .bytes _ => "bytes"
  | .pattern _ => "Pattern"
  | .test _ => "function"

/-- Whether a value counts as true: null, false, zero and whatever is empty do not. -/
def isTruthy : Value → Bool
  | .null => false
  | .bool b => b
  | .int n => n ≠ 0
  | .float x => !x.isZero
  | .str t => !t.isEmpty
  | .list items => !items.isEmpty
  | .tuple items => !items.isEmpty
  | .object members => !members.isEmpty
  | .bytes octets => !octets.isEmpty
  | .pattern _ => true
  | .test _ => true

/-- The number that a value is; truth values are none. -/
def number? : Value → Option Number
  | .int n => some (.int n)
  | .float x => some (.float x)
  | _ => none

/-- The number that a value counts as; truth values count as zero and one. -/
def numeric? : Value → Option Number
  | .bool b => some (.int b.toNat)
  | v => v.number?

/-- Whether a value is a number and no truth value. -/
def isNumber (v : Value) : Bool := v.number?.isSome

/-- Whether a value is null, a truth value, a number or a text. -/
def isScalar : Value → Bool
  | .null | .bool _ | .int _ | .float _ | .str _ => true
  | _ => false

/-- Whether a value is null. -/
def isNull : Value → Bool
  | .null => true
  | _ => false

/-- The items of a list or tuple. -/
def items? : Value → Option (List Value)
  | .list items => some items
  | .tuple items => some items
  | _ => none

/-- The members of an object. -/
def members? : Value → Option Members
  | .object members => some members
  | _ => none

/-- A text, or null when there is none. -/
def ofText? : Option Text → Value
  | some t => .str t
  | none => .null

/-- Whether a value can be looked up by: lists and objects, and tuples of them, cannot. -/
def isKey : Value → Bool
  | .list _ => false
  | .object _ => false
  | .tuple items => areKeys items
  | _ => true
where
  areKeys : List Value → Bool
    | [] => true
    | v :: vs => v.isKey && areKeys vs

end Value

end DocStore
