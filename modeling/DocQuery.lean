import DocQuery.Cosmos.Memory
import DocQuery.Dynamo.Memory
import DocQuery.Proofs.Compile.Fragments
import DocQuery.Proofs.Compile.Outcome
import DocQuery.Proofs.Cosmos.Casings
import DocQuery.Proofs.Cosmos.Pages
import DocQuery.Proofs.Cosmos.Placement
import DocQuery.Proofs.Cosmos.Quoting
import DocQuery.Proofs.Cosmos.Updates
import DocQuery.Proofs.Cursor
import DocQuery.Proofs.Dynamo.Casings
import DocQuery.Proofs.Dynamo.Chains
import DocQuery.Proofs.Dynamo.Closed
import DocQuery.Proofs.Dynamo.DisjointUpdates
import DocQuery.Proofs.Dynamo.Identity
import DocQuery.Proofs.Dynamo.KeyedMap
import DocQuery.Proofs.Dynamo.Plans
import DocQuery.Proofs.Dynamo.Rereading
import DocQuery.Proofs.Dynamo.SameRecord
import DocQuery.Proofs.Expression.Printing
import DocQuery.Proofs.Repository.Backends
import DocQuery.Proofs.Repository.Concurrency
import DocQuery.Proofs.Repository.Discipline
import DocQuery.Proofs.Repository.Failures
import DocQuery.Proofs.Repository.Identifiers
import DocQuery.Proofs.Repository.Instants
import DocQuery.Proofs.Repository.Integers
import DocQuery.Proofs.Repository.Limits
import DocQuery.Proofs.Repository.Membership
import DocQuery.Proofs.Repository.Operands
import DocQuery.Proofs.Repository.Reordering
import DocQuery.Proofs.Repository.Resuming
import DocQuery.Proofs.Repository.Sorting
import DocQuery.Proofs.Repository.Timestamps
import DocQuery.Proofs.Repository.Transparency
import DocQuery.Repository.Connect
import DocQuery.Repository.Run
import DocQuery.Settings.Encode
import DocQuery.Settings.Load
