import DocStore.Document.ObjectId
import DocStore.Value.Mapping

/-!
Projections: documents cut to fields. Fields that are left out are removed
first; when fields are kept, only they and the `_id` remain. A field path
leads into nested objects.
-/

namespace DocStore

/-- The fields to keep and to leave out. -/
structure Projection where
  keep : List Text
  drop : List Text

namespace Projection

/-- The projection of a list of fields, each kept or left out; none for an empty list. -/
def ofFields : List (Text × Bool) → Option Projection
  | [] => none
  | fields => some
    ⟨(fields.filter fun f => f.2).map (·.1), (fields.filter fun f => !f.2).map (·.1)⟩

/-- The projection of a specification: a field is kept when its flag counts as true. -/
def ofValue (spec : Value) : Except Misuse (Option Projection) :=
  if !spec.isTruthy then .ok none
  else
    match spec with
    | .object ms => .ok (ofFields (ms.map fun (field, flag) => (field, flag.isTruthy)))
    | _ => .error .noMember

/-- The members without what a path leads to. -/
def remove : List Text → Members → Members
  | [], ms => ms
  | [key], ms => ms.erase key
  | key :: path, ms =>
    match ms.get? key with
    | some (.object inner) => ms.insert key (.object (remove path inner))
    | _ => ms

/-- What a path leads to. -/
def find? : List Text → Members → Option Value
  | [], ms => some (.object ms)
  | [key], ms => ms.get? key
  | key :: path, ms =>
    match ms.get? key with
    | some (.object inner) => find? path inner
    | _ => none

/-- The members with a value put where a path leads to, through objects that are there or made on the
way. Nothing can be put into a value that is no object. -/
def put (v : Value) : List Text → Members → Except Misuse Members
  | [], ms => .ok ms
  | [key], ms => .ok (ms.insert key v)
  | key :: next :: path, ms =>
    match ms.get? key with
    | none => return ms.insert key (.object (← put v (next :: path) []))
    | some (.object inner) => return ms.insert key (.object (← put v (next :: path) inner))
    | some _ => .error (if path.isEmpty then .wrongType else .noMember)

/-- The members with a kept field added, when the document has it. -/
def keepField (document kept : Members) (field : Text) : Except Misuse Members :=
  if field = idField then .ok kept
  else
    match find? (field.split '.') document with
    | none => .ok kept
    | some v => put v (field.split '.') kept

/-- The members that every projection to kept fields starts with. -/
def idMember (ms : Members) : Members :=
  match ms.get? idField with
  | some id => [(idField, id)]
  | none => []

/-- The members without the fields that are left out. -/
def dropFields (fields : List Text) (ms : Members) : Members :=
  fields.foldl (fun ms field => remove (field.split '.') ms) ms

/-- The members that remain of a document's. -/
def applyMembers (p : Projection) (ms : Members) : Except Misuse Members := do
  let remaining := dropFields p.drop ms
  let kept ←
    if p.keep.isEmpty then .ok remaining
    else p.keep.foldlM (keepField remaining) (idMember remaining)
  return if idField ∈ p.drop then kept.erase idField else kept

/-- What remains of a document, which may be anything that stands for an object. -/
def apply (p : Projection) (document : Value) : Except Misuse Value := do
  return .object (← p.applyMembers (← Members.ofValue document))

end Projection

end DocStore
