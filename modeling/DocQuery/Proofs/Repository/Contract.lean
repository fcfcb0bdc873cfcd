import DocQuery.Proofs.Repository.Records
import DocQuery.Proofs.Repository.Simulation
import DocQuery.Repository.Connect

/-!
# The contract of the stores

An adapter keeps the contract if its operations come to what they come to on records, and do so to the records that its store
holds. Main statement: the repositories over two adapters that keep the contract agree, operation by operation
(`perform_agree`).
-/

namespace DocQuery

/-- The outcome of an operation, with the kind of an error only. -/
def outcome {α : Type} (r : Except Error α) : Except Error.Kind α := r.mapError Error.kind

/-- Equal outcomes are alike. -/
theorem alike_of_outcome {α : Type} {r s : Except Error α} (h : outcome r = outcome s) : Alike Eq r s := by
  cases r <;> cases s <;> simp only [outcome, Except.mapError] at h
  · exact .error (Except.error.inj h)
  · cases h
  · cases h
  · exact .ok (Except.ok.inj h)

/-! ## Adapters that keep the contract -/

/-- Changes that an adapter is asked for: storable ones, at least one, and none of the identifier. -/
structure Changing (changes : Document) : Prop where
  storable : Storable changes
  ne_nil : changes ≠ []
  not_id : "id" ∉ Fields.names changes

/-- What changes make of a document keeps its identifier. -/
theorem Changing.get?_id {old changes : Document} (h : Changing changes) {id : String}
    (hid : Fields.get? old "id" = some (.str id)) : Fields.get? (Fields.putAll old changes) "id" = some (.str id) := by
  rw [Fields.get?_putAll_of_not_mem h.not_id, hid]

section

variable {I J : Interface} {S T : Type}

/-- An operation that, on a store with some records, comes to a result as described and leaves the store with other records. It
does not read the clock, nor draw an identifier. -/
def Operation.Brings {α : Type} (env : Surroundings I S) (Holds : S → Records → Prop) (op : Operation I α) (m : Records)
    (Result : Except Error α → Prop) (m' : Records) : Prop :=
  ∀ w, Holds w.store m → ∃ r w', op.Yields env w r w' ∧ Result r ∧ Holds w'.store m' ∧ w'.readings = w.readings ∧
    w'.drawn = w.drawn

/-- An adapter that keeps the contract, on stores that hold records. -/
structure Adapter.Keeps (a : Adapter I) (env : Surroundings I S) (Holds : S → Records → Prop) : Prop where
  idField : a.idField = "id"
  findById : ∀ m id select, (a.findById id select).Brings env Holds m
    (fun r => ∃ found, r = .ok found ∧ found.map select.project = (m id).map select.project) m
  insert : ∀ m policy id d, Storable d → Fields.get? d "id" = some (.str id) →
    (a.insert d policy).Brings env Holds m (fun r => outcome r = (m.insert policy id d).1) (m.insert policy id d).2
  update : ∀ m policy id changes, Changing changes →
    (a.update id changes policy).Brings env Holds m (fun r => outcome r = (m.update policy id changes).1)
      (m.update policy id changes).2
  delete : ∀ m policy id,
    (a.delete id policy).Brings env Holds m (fun r => outcome r = (m.delete policy id).1) (m.delete policy id).2

end

/-! ## Calls -/

/-- A call of an operation on one record. -/
inductive RecordCall where
  | create (data : Json)
  | findOne (id : String) (select : Select)
  | update (id : String) (data : Json)
  | delete (id : String)

namespace RecordCall

/-- What a call does; a removal returns no document. -/
def perform {I : Interface} (r : Repository I Document) : RecordCall → Operation I (Option Document)
  | .create data => do return some (← r.create data)
  | .findOne id select => do return some (← r.findOne id select)
  | .update id data => do return some (← r.update id data)
  | .delete id => do
    r.delete id
    return none

/-- A call whose payload, where it has one, is storable. -/
def Admissible : RecordCall → Prop
  | .create (.obj members) | .update _ (.obj members) => Storable members
  | _ => True

end RecordCall

/-! ## Agreement -/

section

variable {I J : Interface} {S T : Type} {c : Coupling I J S T} {Holds : S → Records → Prop} {Holds' : T → Records → Prop}

/-- Operations that do the same to the same records agree. -/
theorem Operation.Brings.agree {α β : Type} {V : α → β → Prop} (hc : ∀ s t, c.Correspond s t ↔ ∃ m, Holds s m ∧ Holds' t m)
    {x : Operation I α} {y : Operation J β} {P : Records → Except Error α → Prop} {Q : Records → Except Error β → Prop}
    {next : Records → Records} (hx : ∀ m, x.Brings c.left Holds m (P m) (next m))
    (hy : ∀ m, y.Brings c.right Holds' m (Q m) (next m)) (h : ∀ m r s, P m r → Q m s → Alike V r s) : c.Agree V x y := by
  intro w v hs
  obtain ⟨m, hw, hv⟩ := (hc _ _).1 hs.store
  obtain ⟨r, w', hx, hr, hw', hrw, hdw⟩ := hx m w hw
  obtain ⟨s, v', hy, hs', hv', hrv, hdv⟩ := hy m v hv
  refine ⟨r, s, w', v', hx, hy, h m r s hr hs', (hc _ _).2 ⟨_, hw', hv'⟩, ?_, ?_⟩
  · rw [hrw, hrv, hs.readings]
  · rw [hdw, hdv, hs.drawn]

end

/-- A document with an identifier that any store keeps. -/
structure Complete (d : Document) : Prop where
  storable : Storable d
  id : ∃ id, Fields.get? d "id" = some (.str id)

/-- One value on both sides, with a property. -/
def Both {α : Type} (P : α → Prop) (a b : α) : Prop := a = b ∧ P a

namespace Repository

section

variable {I J : Interface} {S T : Type} {c : Coupling I J S T} {Holds : S → Records → Prop} {Holds' : T → Records → Prop}
  {a : Adapter I} {b : Adapter J} (ha : a.Keeps c.left Holds) (hb : b.Keeps c.right Holds')
  (hc : ∀ s t, c.Correspond s t ↔ ∃ m, Holds s m ∧ Holds' t m) (config : EntityConfig)

/-- What is known already is the same on both sides. -/
theorem agree_of {α : Type} {P : α → Prop} {r : Except Error α} (h : ∀ a, r = .ok a → P a) :
    c.Agree (Both P) (Operation.of r) (Operation.of r) := by
  refine .of ?_
  cases r with
  | ok a => exact .ok ⟨rfl, h a rfl⟩
  | error e => exact .error rfl

/-- The members of an admissible payload are storable. -/
theorem storable_of_payload {operation : PayloadOperation} {data : Json} (h : ∀ members, data = .obj members → Storable members)
    {d : Document} (hd : payload operation data = .ok d) : Storable d := by
  unfold payload at hd
  split at hd
  · cases hd
  · next members _ => cases hd; exact h _ rfl
  · cases hd

include ha hb in
/-- Both repositories give a new record the same identifier. -/
theorem agree_withId {d : Document} (h : Storable d) :
    c.Agree (Both Complete) (withId (ofDocuments config a) d) (withId (ofDocuments config b) d) := by
  have hchecked : ∀ {id : String} {d : Document}, Complete d → c.Agree (Both Complete)
      (do Operation.of (checkId id); return d) (do Operation.of (checkId id); return d) := fun hd =>
    (agree_of (P := fun _ => True) fun _ _ => trivial).bind fun _ _ _ => .pure ⟨rfl, hd⟩
  simp only [withId, ofDocuments, ha.idField, hb.idField]
  cases hid : Fields.get? d "id" with
  | some j =>
    cases j with
    | str id => exact hchecked ⟨h, id, hid⟩
    | _ => exact .throw rfl
  | none =>
    cases config.autoFields.id with
    | false => exact .throw rfl
    | true =>
      refine Coupling.Agree.freshId.bind ?_
      rintro id _ rfl
      exact hchecked ⟨h.putText (by decide) id, id, Fields.get?_put_self d "id" _⟩

/-- Both repositories give a new record the same instants. -/
theorem agree_withCreation {d : Document} (h : Complete d) :
    c.Agree (Both Complete) (withCreation (ofDocuments config a) d) (withCreation (ofDocuments config b) d) := by
  unfold withCreation ofDocuments
  by_cases ht : config.autoFields.timestamp = true
  · rw [if_pos ht, if_pos ht]
    refine Coupling.Agree.now.bind ?_
    rintro now _ rfl
    obtain ⟨id, hid⟩ := h.id
    refine .pure ⟨rfl, (h.storable.putText (by decide) _).putText (by decide) _, id, ?_⟩
    rw [Fields.get?_put_of_ne _ _ (by decide), Fields.get?_put_of_ne _ _ (by decide), hid]
  · rw [if_neg ht, if_neg ht]
    exact .pure ⟨rfl, h⟩

include ha hb hc in
/-- Creating a record. -/
theorem create_agree (data : Json) (h : ∀ members, data = .obj members → Storable members) :
    c.Agree Eq (create (ofDocuments config a) data) (create (ofDocuments config b) data) := by
  rw [create, create]
  refine (agree_of fun d => storable_of_payload h).bind ?_
  rintro d _ ⟨rfl, hd⟩
  refine (agree_withId ha hb config hd).bind ?_
  rintro d _ ⟨rfl, hd⟩
  refine (agree_withCreation config hd).bind ?_
  rintro d _ ⟨rfl, hd⟩
  obtain ⟨id, hid⟩ := hd.id
  refine (Operation.Brings.agree hc (fun m => ha.insert m config.writePolicy id d hd.storable hid)
    (fun m => hb.insert m config.writePolicy id d hd.storable hid)
    fun m r s hr hs => alike_of_outcome (hr.trans hs.symm)).bind ?_
  rintro d _ rfl
  exact .of (.ok rfl)

include ha hb hc in
/-- Finding a record. -/
theorem findOne_agree (id : String) (select : Select) :
    c.Agree Eq (findOne (ofDocuments config a) id select) (findOne (ofDocuments config b) id select) := by
  rw [findOne, findOne]
  refine (agree_of (P := fun _ => True) fun _ _ => trivial).bind ?_
  rintro _ _ -
  refine (Operation.Brings.agree (V := fun d e => d.map select.project = e.map select.project) hc
    (fun m => ha.findById m id select) (fun m => hb.findById m id select) ?_).bind ?_
  · rintro m r s ⟨d, rfl, hd⟩ ⟨e, rfl, he⟩
    exact .ok (hd.trans he.symm)
  · intro d e h
    cases d <;> cases e <;> simp only [Option.map_none, Option.map_some, Option.some.injEq, reduceCtorEq] at h
    · exact .throw rfl
    · exact .of (.ok h)

/-- Changes without the identifier do not have it. -/
theorem not_mem_of_withoutId {field id : String} {changes changes' : Document} (h : withoutId field id changes = .ok changes') :
    field ∉ Fields.names changes' := by
  rw [withoutId] at h
  split at h
  · next hnone =>
    cases h
    exact Fields.get?_eq_none_iff.1 hnone
  · split at h
    · cases h
      intro hm
      obtain ⟨e, he, hname⟩ := List.mem_map.1 hm
      simp [Fields.drop, hname] at he
    · cases h
  · cases h

/-- Storable changes without the identifier are storable, and do not have it. -/
theorem not_id_of_withoutId {id : String} {changes changes' : Document} (h : withoutId "id" id changes = .ok changes')
    (hs : Storable changes) : Storable changes' ∧ "id" ∉ Fields.names changes' := by
  refine ⟨?_, not_mem_of_withoutId h⟩
  rw [withoutId] at h
  split at h
  · cases h
    exact hs
  · split at h
    · cases h
      exact hs.filter _
    · cases h
  · cases h

/-- Both repositories give changes the same instant. -/
theorem agree_withUpdate {changes : Document} (h : Storable changes ∧ "id" ∉ Fields.names changes) :
    c.Agree (Both fun changes => Storable changes ∧ "id" ∉ Fields.names changes)
      (withUpdate (ofDocuments config a) changes) (withUpdate (ofDocuments config b) changes) := by
  unfold withUpdate ofDocuments
  by_cases ht : config.autoFields.timestamp = true
  · rw [if_pos ht, if_pos ht]
    refine Coupling.Agree.now.bind ?_
    rintro now _ rfl
    refine .pure ⟨rfl, (h.1.filter _).putText (by decide) _, ?_⟩
    rw [Fields.names_put]
    have hdrop : "id" ∉ Fields.names (Fields.drop changes createdAt) := fun hm =>
      h.2 (List.Sublist.subset (List.Sublist.map _ List.filter_sublist) hm)
    split
    · exact hdrop
    · simpa [updatedAt] using hdrop
  · rw [if_neg ht, if_neg ht]
    exact .pure ⟨rfl, h⟩

include ha hb hc in
/-- Changing a record. -/
theorem update_agree (id : String) (data : Json) (h : ∀ members, data = .obj members → Storable members) :
    c.Agree Eq (update (ofDocuments config a) id data) (update (ofDocuments config b) id data) := by
  rw [update, update]
  refine (agree_of (P := fun _ => True) fun _ _ => trivial).bind ?_
  rintro _ _ -
  refine (agree_of fun d => storable_of_payload h).bind ?_
  rintro changes _ ⟨rfl, hd⟩
  simp only [ofDocuments, ha.idField, hb.idField]
  refine (agree_of fun changes' h' => not_id_of_withoutId h' hd).bind ?_
  rintro changes _ ⟨rfl, hd⟩
  refine (agree_withUpdate config hd).bind ?_
  rintro changes _ ⟨rfl, hd⟩
  split
  · exact .throw rfl
  · next hne =>
    have hchanging : Changing changes := ⟨hd.1, by simpa using hne, hd.2⟩
    refine (Operation.Brings.agree hc (fun m => ha.update m config.writePolicy id changes hchanging)
      (fun m => hb.update m config.writePolicy id changes hchanging)
      fun m r s hr hs => alike_of_outcome (hr.trans hs.symm)).bind ?_
    rintro d _ rfl
    exact .of (.ok rfl)

include ha hb hc in
/-- Removing a record. -/
theorem delete_agree (id : String) : c.Agree Eq (delete (ofDocuments config a) id) (delete (ofDocuments config b) id) := by
  rw [delete, delete]
  refine (agree_of (P := fun _ => True) fun _ _ => trivial).bind ?_
  rintro _ _ -
  exact Operation.Brings.agree hc (fun m => ha.delete m config.writePolicy id) (fun m => hb.delete m config.writePolicy id)
    fun m r s hr hs => alike_of_outcome (hr.trans hs.symm)

include ha hb hc in
/-- The repositories over two adapters that keep the contract agree. -/
theorem perform_agree {call : RecordCall} (h : call.Admissible) :
    c.Agree Eq (call.perform (ofDocuments config a)) (call.perform (ofDocuments config b)) := by
  cases call with
  | create data =>
    refine (create_agree ha hb hc config data ?_).bind ?_
    · rintro members rfl
      exact h
    · rintro d _ rfl
      exact .pure rfl
  | findOne id select =>
    refine (findOne_agree ha hb hc config id select).bind ?_
    rintro d _ rfl
    exact .pure rfl
  | update id data =>
    refine (update_agree ha hb hc config id data ?_).bind ?_
    · rintro members rfl
      exact h
    · rintro d _ rfl
      exact .pure rfl
  | delete id => exact (delete_agree ha hb hc config id).bind fun _ _ _ => .pure rfl

end

end Repository

end DocQuery
