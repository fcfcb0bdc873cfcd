import DocQuery.Proofs.Json.Distinct
import DocQuery.Repository.Operations

/-!
# Deciding equality

Values are equal if their texts are, so whether they are is decided by these; and with the values, the equality of errors and of pages
of records is decided. So what a run on given data comes to can be decided by running it.
-/

namespace DocQuery

/-- Values are told apart by their texts. -/
instance : DecidableEq Json := fun _ _ => decidable_of_iff _ Json.text_injective.eq_iff

deriving instance DecidableEq for ArgumentFault, FilterFault, CursorFault, ContractFault, Error

deriving instance DecidableEq for RecordsPage

end DocQuery
