import DocQuery.Proofs.Cosmos.Updates
import DocQuery.Proofs.Repository.Effects

/-!
# What writes make of a container

A call that writes and succeeds has put one document into its container, in the place of the one with its identifier or as a new one,
or removed one. The operations that write are each such a call in the end (`insert_ends`, `upsert_ends`, `update_ends`,
`delete_ends`).
-/

namespace DocQuery.Cosmos

open Operation

/-! ## Calls that succeed -/

namespace Memory

variable {m m' : Memory} {c : Container} {d stored : Document}

/-- An answer that succeeds leaves the documents of its container changed. -/
theorem of_store_ok {α : Type} {r : Except StoreError (List Document × α)} {a : α} (h : m.store c r = (.ok a, m')) :
    ∃ ds, r = .ok (ds, a) ∧ m' = m.setDocuments c ds := by
  cases r with
  | error e => cases h
  | ok after =>
    cases h
    exact ⟨after.1, rfl, rfl⟩

/-- What is required to be there is there. -/
theorem of_requireShelf {shelf : Shelf} (h : m.requireShelf c = .ok shelf) : m.shelf? c = some shelf := by
  rw [requireShelf] at h
  split at h
  · next hshelf =>
    cases h
    exact hshelf
  · cases h

/-- A document that is to be stored has an identifier. -/
theorem of_requireId {id : String} (h : requireId d = .ok id) : documentId? d = some id := by
  rw [requireId] at h
  split at h
  · next hid =>
    cases h
    exact hid
  · cases h

/-- A place that is required is there. -/
theorem of_requirePosition {shelf : Shelf} {id : String} {partition : Json} {i : Nat}
    (h : requirePosition shelf id partition = .ok i) : shelf.position? id = some i := by
  rw [requirePosition] at h
  split at h
  · next hin =>
    cases h
    exact position?_of_positionIn? hin
  · cases h

/-- A document is stored as a new one, and none has had its identifier. -/
theorem create_ok (h : Memory.answer (.create c d) m = (.ok stored, m')) :
    ∃ shelf id, m.shelf? c = some shelf ∧ documentId? d = some id ∧ shelf.position? id = none ∧ stored = d ∧
      m' = m.setDocuments c (shelf.documents ++ [d]) := by
  obtain ⟨ds, hds, hstore⟩ := of_store_ok (act_of_ok h)
  obtain ⟨id, hid, hds⟩ := of_bind_eq_ok hds
  obtain ⟨shelf, hshelf, hds⟩ := of_bind_eq_ok hds
  split at hds
  · cases hds
  · next hnone =>
    cases hds
    exact ⟨shelf, id, of_requireShelf hshelf, of_requireId hid, hnone, rfl, hstore⟩

/-- A document is stored, whatever has had its identifier. -/
theorem upsert_ok (h : Memory.answer (.upsert c d) m = (.ok stored, m')) :
    ∃ shelf ds, m.shelf? c = some shelf ∧ d ∈ ds ∧ stored = d ∧ m' = m.setDocuments c ds := by
  obtain ⟨ds, hds, hstore⟩ := of_store_ok (act_of_ok h)
  obtain ⟨id, -, hds⟩ := of_bind_eq_ok hds
  obtain ⟨shelf, hshelf, hds⟩ := of_bind_eq_ok hds
  split at hds
  · next i hi =>
    cases hds
    have hlt : i < shelf.documents.length := (List.findIdx?_eq_some_iff_getElem.1 hi).1
    exact ⟨shelf, _, of_requireShelf hshelf, List.mem_set hlt d, rfl, hstore⟩
  · cases hds
    exact ⟨shelf, _, of_requireShelf hshelf, List.mem_append_right _ (List.mem_singleton_self d), rfl, hstore⟩

/-- The document with the identifier is removed. -/
theorem delete_ok {id : String} {partition : Json} {answer : Unit}
    (h : Memory.answer (.delete c id partition) m = (.ok answer, m')) :
    ∃ shelf i, m.shelf? c = some shelf ∧ shelf.position? id = some i ∧ m' = m.setDocuments c (shelf.documents.eraseIdx i) := by
  obtain ⟨ds, hds, hstore⟩ := of_store_ok (act_of_ok h)
  obtain ⟨shelf, hshelf, hds⟩ := of_bind_eq_ok hds
  obtain ⟨i, hi, hds⟩ := of_bind_eq_ok hds
  cases hds
  exact ⟨shelf, i, of_requireShelf hshelf, of_requirePosition hi, hstore⟩

end Memory

/-! ## Operations that succeed -/

section

variable {clock : Nat → Instant} {ids : Nat → String} {latency : Nat} {c : Container}
  {w : World service (Memory × List (Option StoreError))} {id : String} {key : String} {ds : List Document} {found : Option Document}

/-- Storing a document ends with the call that does so. -/
theorem upsert_ends (d : Document) : (upsert c d).Gives (.flaky Memory.answer clock ids latency)
    (fun stored w' => ∃ answer, stored = strip answer ∧ viewed.Ends w w' (.upsert c d) answer) w :=
  .bind (ask_ends (v := viewed) (c := .upsert c d) _) fun answer _ hends => .pure ⟨answer, rfl, hends⟩

/-- Storing a new document, with a check, ends with the call that creates it, or without one with the call that stores it. -/
theorem insert_ends (d : Document) (policy : WritePolicy) : (insert c d policy).Gives (.flaky Memory.answer clock ids latency)
    (fun stored w' => ∃ answer : Document, stored = strip answer ∧
      (policy = .existenceChecked ∧ viewed.Ends w w' (.create c d) answer ∨
        policy = .unchecked ∧ viewed.Ends w w' (.upsert c d) answer)) w := by
  rw [insert]
  refine .of_bind fun id _ => .of_bind fun _ _ => ?_
  cases policy with
  | existenceChecked =>
    exact .bind (ask_ends (v := viewed) (c := .create c d) _) fun answer _ hends => .pure ⟨answer, rfl, .inl ⟨rfl, hends⟩⟩
  | unchecked =>
    refine (upsert_ends d).imp ?_
    rintro _ _ ⟨answer, hstored, hends⟩
    exact ⟨answer, hstored, .inr ⟨rfl, hends⟩⟩

end

end DocQuery.Cosmos
