import DocStore.Fault.Report
import DocStore.Options.Field

/-!
Details of reports read from the members of an object.
-/

namespace DocStore

/-- The detail that the members of an object stand for. -/
def Detail.ofMembers (ms : Members) : Checked Detail := do
  let (code, cause, hint, metadata) ←
    Checked.both (Field.required Field.text ms "code") <|
    Checked.both (Field.optional Field.text ms "cause") <|
    Checked.both (Field.optional Field.text ms "hint")
      (Field.withDefault [] Field.object ms "metadata")
  return { code, cause, hint, metadata }

end DocStore
