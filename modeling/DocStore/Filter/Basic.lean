import DocStore.Value.Test

/-!
Filters: what selects documents. Criteria become SQL, so that the database
selects; a predicate is a function of the host, to which every document of the
collection is shown.
-/

namespace DocStore

/-- A filter. -/
inductive Filter where
  /-- An object of conditions; whatever counts as false selects every document. -/
  | criteria (v : Value)
  /-- A function that is asked about each document. -/
  | predicate (selects : Value → Except Misuse Bool)

namespace Filter

/-- The filter that a value stands for: a test is a predicate, every other value is criteria. -/
def ofValue : Value → Filter
  | .test t => .predicate t.holds
  | v => .criteria v

/-- The filter that selects every document. -/
def everything : Filter := .criteria .null

end Filter

end DocStore
