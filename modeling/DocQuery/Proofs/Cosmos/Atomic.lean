import DocQuery.Proofs.Cosmos.Checked
import DocQuery.Proofs.Repository.Atomic
import DocQuery.Proofs.Repository.OneCall

/-!
# Containers as operations leave them

An operation on a container sends queries until it writes, and the document that answers a write is the last thing it needs. So the
operations of repositories over containers are atomic (`adapter_atomic`), in every store.
-/

namespace DocQuery.Cosmos

open Operation

/-! ## Calls -/

section

variable {m : Memory} {call : Call}

/-- The documents are as they were where a call fails. -/
theorem Memory.shelves_of_error {e : StoreError} (h : (Memory.answer call m).1 = .error e) :
    (Memory.answer call m).2.shelves = m.shelves := by
  have hstore : ∀ {α : Type} (c : Container) (r : Except StoreError (List Document × α)), (m.store c r).1 = .error e →
      (m.store c r).2 = m := by
    intro α c r hr
    cases r with
    | error e => rfl
    | ok after => cases hr
  rw [Memory.answer] at h ⊢
  cases hf : m.failure with
  | some e => rfl
  | none =>
    rw [hf] at h
    refine congrArg Memory.shelves ?_
    cases call with
    | query c spec max continuation => rfl
    | create c d => exact hstore c _ h
    | upsert c d => exact hstore c _ h
    | replace c id partition d => exact hstore c _ h
    | delete c id partition => exact hstore c _ h

/-- A store of containers, of which the containers are seen. Every store counts. -/
def viewed : Viewed service Memory (List ((String × String) × Shelf)) := ⟨Memory.answer, fun _ => True, Memory.shelves⟩

/-- A call that does not write reads. -/
theorem viewed_reads (h : ¬call.Writes) : viewed.Reads call := by
  intro s _
  refine ⟨trivial, view_answerUnless Memory.shelves rfl ?_⟩
  cases call with
  | query c spec max continuation => rfl
  | create c d => exact absurd trivial h
  | upsert c d => exact absurd trivial h
  | replace c id partition d => exact absurd trivial h
  | delete c id partition => exact absurd trivial h

/-- A last call is atomic where its failure ends the operation, and its answer does so with success. -/
theorem atomic_last {α : Type} (call : Call) {next : Except StoreError (service.Answer call) → Program service (Except Error α)}
    (herror : ∀ e, ∃ r, next (.error e) = .done r) (hok : ∀ answer, ∃ a, next (.ok answer) = .done (.ok a)) :
    (Program.call (I := service) call next).Atomic viewed :=
  .last herror (fun _ _ => trivial) (fun _ _ he => Memory.shelves_of_error he) fun _ answer _ _ => hok answer

end

/-! ## Operations on a container -/

section

variable (c : Container)

/-- A lookup does not write. -/
theorem not_writes_of_planFind {id : String} {select : Select} {call : Call} (h : planFind c id select = .ok call) :
    ¬call.Writes := by
  obtain ⟨compiled, -, rfl⟩ := of_map_eq_ok h
  exact not_false

/-- A search only reads. -/
theorem findMany_reads (request : PageRequest) : (findMany c request).Reads viewed fun _ => True := by
  refine Sends.of_bind fun compiled _ => ?_
  refine Sends.bind (Sends.ask (I := service) (@viewed_reads (.query c compiled.spec _ _) not_false) _) fun page _ => ?_
  exact Sends.of_bind fun _ _ => Sends.pure trivial

/-- Finding a document only reads. -/
theorem findById_reads (id : String) (select : Select) : (findById c id select).Reads viewed fun _ => True := by
  refine Sends.of_bind fun compiled _ => ?_
  refine Sends.bind (Sends.ask (I := service) (@viewed_reads (.query c compiled.spec _ _) not_false) _) fun page _ => ?_
  exact Sends.of_bind fun _ _ => Sends.pure trivial

/-- Storing a document is atomic. -/
theorem upsert_atomic (d : Document) : (upsert c d).Atomic viewed :=
  atomic_last (.upsert c d) (fun _ => ⟨_, rfl⟩) fun answer => ⟨strip answer, rfl⟩

/-- Storing a new document is atomic. -/
theorem insert_atomic (d : Document) (policy : WritePolicy) : (insert c d policy).Atomic viewed := by
  refine Atomic.of_bind fun id => ?_
  refine Atomic.of_bind fun _ => ?_
  cases policy with
  | existenceChecked => exact atomic_last (.create c d) (fun _ => ⟨_, rfl⟩) fun answer => ⟨strip answer, rfl⟩
  | unchecked => exact upsert_atomic c d

/-- Replacing a document is atomic. -/
theorem replace_atomic (id : String) (existing changes : Document) : (replace c id existing changes).Atomic viewed := by
  refine Atomic.of_bind fun partition => ?_
  have hlast : ∀ merged, Operation.Atomic viewed (do
      let stored : Document ← Operation.ask (I := service) (.replace c id partition merged) (missing id)
      return strip stored) := fun merged =>
    atomic_last (.replace c id partition merged) (fun _ => ⟨_, rfl⟩) fun answer => ⟨strip answer, rfl⟩
  dsimp only
  split
  · split
    · exact Atomic.throw _
    · exact hlast _
  · exact hlast _

/-- Changing a document is atomic. -/
theorem update_atomic (id : String) (changes : Document) (policy : WritePolicy) : (update c id changes policy).Atomic viewed := by
  refine Reads.atomic_bind (findById_reads c id Select.all) fun found _ => ?_
  cases found with
  | some existing => exact replace_atomic c id existing changes
  | none =>
    cases policy with
    | existenceChecked => exact Atomic.throw _
    | unchecked =>
      exact Atomic.of_bind fun _ => upsert_atomic c _

/-- Removing a document is atomic. -/
theorem delete_atomic (id : String) (policy : WritePolicy) : (delete c id policy).Atomic viewed := by
  refine Reads.atomic_bind (findById_reads c id Select.all) fun found _ => ?_
  cases found with
  | none =>
    cases policy with
    | existenceChecked => exact Atomic.throw _
    | unchecked => exact Atomic.pure ()
  | some existing =>
    refine Atomic.of_bind fun partition => ?_
    exact atomic_last (.delete c id partition) (fun _ => ⟨_, rfl⟩) fun answer => ⟨(), rfl⟩

/-- The operations on a container are atomic. -/
theorem adapter_atomic : (adapter c).Atomic viewed where
  findMany := findMany_reads c
  findById := findById_reads c
  insert := insert_atomic c
  update := update_atomic c
  delete := delete_atomic c

end

end DocQuery.Cosmos
