import DocStore.Options.Field
import DocStore.Value.Mapping

/-!
Find options: how the documents that a filter selects are ordered, cut to a
page and cut to fields.
-/

namespace DocStore

/-- The options of a search. -/
structure FindOptions where
  /-- The fields to order by, each with its direction. -/
  sort : Option Members := none
  /-- The greatest number of documents; zero is no limit. -/
  limit : Option Nat := none
  /-- How many documents are left out at the beginning. -/
  skip : Option Nat := none
  /-- The fields to keep or to leave out. -/
  projection : Option (List (Text × Bool)) := none

namespace FindOptions

/-- The options that the members of an object stand for. -/
def ofMembers (ms : Members) : Checked FindOptions := do
  let (sort, limit, skip, projection) ←
    Checked.both (Field.optional Field.object ms "sort") <|
    Checked.both (Field.optional Field.natural ms "limit") <|
    Checked.both (Field.optional Field.natural ms "skip")
      (Field.optional (Field.objectOf Field.truth) ms "projection")
  return { sort, limit, skip, projection }

/-- The members with `fields` taken for `projection`, unless both are there. -/
def renameFields (ms : Members) : Members :=
  match ms.get? "fields", ms.get? "projection" with
  | some fields, none => (ms.erase "fields").insert "projection" fields
  | _, _ => ms.erase "fields"

/-- The options that a value stands for; null stands for none. -/
def ofValue : Value → Except Misuse (Checked FindOptions)
  | .null => .ok (.ok {})
  | v => do return ofMembers (renameFields (← Members.ofValue v))

end FindOptions

end DocStore
