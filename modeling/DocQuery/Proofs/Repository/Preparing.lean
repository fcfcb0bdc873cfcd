import DocQuery.Proofs.Repository.Atomic
import DocQuery.Proofs.Repository.Consistency

/-!
# Preparing a record

A creation works out the document that it stores before it stores it: the payload, with an identifier and, where they are filled in,
the instants of its creation.
-/

namespace DocQuery

open Operation

/-! ## Creating in two steps -/

/-- One operation after another, and a third after both. -/
theorem Operation.bind_assoc {I : Interface} {α β γ : Type} (x : Operation I α) (f : α → Operation I β) (g : β → Operation I γ) :
    (x >>= f) >>= g = x >>= fun a => f a >>= g := by
  refine (Program.bind_assoc (ExceptT.run x) _ _).trans (congrArg (Program.bind (ExceptT.run x)) (funext fun r => ?_))
  cases r <;> rfl

/-- An operation that asks nothing of the store leaves it as it is, and its value is one of those that it may come to. -/
theorem Operation.Sends.yields_ok {I : Interface} {S α : Type} {env : Surroundings I S} {Q : α → Prop} {op : Operation I α}
    (h : op.Sends (fun _ => False) Q) {w w' : World I S} {a : α} (hop : op.Yields env w (.ok a) w') :
    w'.store = w.store ∧ Q a := by
  have hrun : (Program.run env none 0 w (ExceptT.run op)).2.store = w.store ∧ _ :=
    Program.Sends.run env (K := fun s => s = w.store) h (fun _ _ hc => hc.elim) rfl none 0
  rw [show Program.run env none 0 w (ExceptT.run op) = (some (.ok a), w') from hop] at hrun
  exact ⟨hrun.1, hrun.2 _ rfl a rfl⟩

namespace Repository

variable {I : Interface}

/-- The document that a creation stores: its payload, with the automatic fields. -/
def prepare (r : Repository I Document) (data : Json) : Operation I Document := do
  let d ← Operation.of (payload .create data)
  let d ← r.withId d
  r.withCreation d

/-- Creating a record is to prepare its document and to store it. -/
theorem create_eq (r : Repository I Document) (data : Json) : r.create data = (do
      let d ← r.prepare data
      let stored ← r.adapter.insert d r.config.writePolicy
      Operation.of (r.materialize stored)) := by
  rw [prepare, Operation.bind_assoc]
  refine congrArg (Operation.of (payload .create data) >>= ·) (funext fun d => ?_)
  exact (Operation.bind_assoc _ _ _).symm

/-- A document with an identifier is prepared as it is, where no instants are filled in. -/
theorem prepare_plain (r : Repository I Document) {members : Document} {id : String}
    (hid : Fields.get? members r.adapter.idField = some (.str id)) (hvalid : ValidId id)
    (hstamp : r.config.autoFields.timestamp = false) : r.prepare (.obj members) = pure members := by
  have hne : members ≠ [] := fun h => by cases h ▸ hid
  have hwithId : r.withId members = pure members := by
    rw [withId, hid]
    simp only [show checkId id = .ok () from hvalid]
    rfl
  rw [prepare, payload_of_ne_nil .create hne]
  show r.withId members >>= r.withCreation = pure members
  rw [hwithId]
  show r.withCreation members = pure members
  rw [withCreation, hstamp]
  rfl

/-- Preparing a document asks nothing of the store, and gives it a text for an identifier. -/
theorem prepare_sends (r : Repository I Document) (data : Json) {P : I.Call → Prop} :
    (r.prepare data).Sends P fun d => ∃ id, Fields.get? d r.adapter.idField = some (.str id) := by
  refine Sends.of_bind fun members _ => ?_
  exact Sends.bind (withId_sends r members) fun d hid => withCreation_sends r hid

end Repository

end DocQuery
