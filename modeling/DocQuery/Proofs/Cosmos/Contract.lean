import DocQuery.Proofs.Cosmos.FindMany
import DocQuery.Proofs.Repository.Contract

/-!
# Containers keep the contract

A container lists its records in the order in which they were stored. Reading an identifier finds its record by a query, and a
checked write reads before it writes; both come to what the contract says.
-/

namespace DocQuery.Cosmos

open Expression Operation

/-! ## Containers that list records -/

/-- A store in whose container documents stand that list the records. -/
structure Holds (c : Container) (s : Memory) (m : Records) : Prop where
  failure : s.failure = none
  lists : ∃ ds, s.shelf? c = some ⟨"id", ds⟩ ∧ Lists ds m

/-- Documents that were set are there. -/
theorem shelf?_setDocuments {s : Memory} {c : Container} {shelf : Shelf} (h : s.shelf? c = some shelf) (ds : List Document) :
    (s.setDocuments c ds).shelf? c = some { shelf with documents := ds } := by
  obtain ⟨shelves, failure⟩ := s
  simp only [Memory.shelf?, Memory.setDocuments] at h ⊢
  induction shelves with
  | nil => cases h
  | cons e rest ih =>
    obtain ⟨key, other⟩ := e
    rw [List.lookup_cons] at h
    rw [List.map_cons]
    by_cases hkey : key = (c.database, c.name)
    · simp only [hkey, beq_self_eq_true, Option.some.injEq] at h
      simp [hkey, h]
    · have hne : ((c.database, c.name) == key) = false := beq_false_of_ne (Ne.symm hkey)
      rw [hne] at h
      rw [if_neg hkey, List.lookup_cons, hne]
      exact ih h

/-- A store holds other records once its container lists them. -/
theorem Holds.set {c : Container} {s : Memory} {m m' : Records} (h : Holds c s m) {ds : List Document} (hds : Lists ds m') :
    Holds c (s.setDocuments c ds) m' := by
  obtain ⟨es, hshelf, -⟩ := h.lists
  exact ⟨h.failure, ds, shelf?_setDocuments hshelf ds, hds⟩

/-- A document that is stripped has no properties of the service, and its other fields. -/
theorem get?_strip (d : Document) (name : String) :
    Fields.get? (strip d) name = if name ∈ systemProperties then none else Fields.get? d name := by
  rw [strip, Fields.get?_filter (!systemProperties.contains ·)]
  by_cases hsystem : name ∈ systemProperties
  · rw [if_pos hsystem, if_neg (by simpa using hsystem)]
  · rw [if_neg hsystem, if_pos (by simpa using hsystem)]

/-- A storable document has none of the service's properties. -/
theorem strip_of_storable {d : Document} (h : Storable d) : strip d = d :=
  List.filter_eq_self.2 fun e he => by simpa using (h e he).2

/-! ## Calls -/

section

variable {as bs ds : List Document} {d old : Document} {found : Option Document} {id key : String} {c : Container} {s : Memory}

/-- A document that is not there has no place. -/
theorem position?_absent (h : ∀ d ∈ ds, documentId? d ≠ some id) (key : String) : Shelf.position? ⟨key, ds⟩ id = none :=
  List.findIdx?_eq_none_iff.2 fun d hd => by simpa using h d hd

/-- The place of a document with others around it. -/
theorem position?_split (h : ∀ e ∈ as ++ bs, documentId? e ≠ some id) (hold : documentId? old = some id) (key : String) :
    Shelf.position? ⟨key, as ++ old :: bs⟩ id = some as.length := by
  have has : as.findIdx? (fun d => documentId? d == some id) = none :=
    List.findIdx?_eq_none_iff.2 fun d hd => by simpa using h d (List.mem_append_left bs hd)
  simp only [Shelf.position?, List.findIdx?_append, has, List.findIdx?_cons, hold, beq_self_eq_true]
  simp

/-- The place of a document by its identifier and its partition, which are one. -/
theorem requirePosition_split (h : ∀ e ∈ as ++ bs, documentId? e ≠ some id) (hold : documentId? old = some id) :
    Memory.requirePosition ⟨"id", as ++ old :: bs⟩ id (.str id) = .ok as.length := by
  have hin : Shelf.positionIn? ⟨"id", as ++ old :: bs⟩ id (.str id) = some as.length := by
    rw [Shelf.positionIn?, position?_split h hold]
    simp [documentId?_eq_some_iff.1 hold, Json.same]
  rw [Memory.requirePosition, hin]

/-- A document that is not there has no place that is required. -/
theorem requirePosition_absent (h : ∀ d ∈ ds, documentId? d ≠ some id) (partition : Json) :
    Memory.requirePosition ⟨key, ds⟩ id partition = .error (.notFound ("Resource Not Found: " ++ id)) := by
  rw [Memory.requirePosition, Shelf.positionIn?, position?_absent h]
  rfl

/-- Creating a document: one more, unless its identifier is taken. -/
theorem create_eq (hshelf : s.shelf? c = some ⟨key, ds⟩) (h : Stands id ds found) (hid : documentId? d = some id) :
    match found with
    | none => s.create c d = (.ok d, s.setDocuments c (ds ++ [d]))
    | some _ => ∃ reason, s.create c d = (.error (.conflict reason), s) := by
  cases h with
  | absent h =>
    simp only [Memory.create, requireId, hid, Memory.requireShelf, hshelf, position?_absent h, bind, Except.bind, Memory.store]
  | alone hold h =>
    refine ⟨"Entity with the specified id already exists: " ++ id, ?_⟩
    simp only [Memory.create, requireId, hid, Memory.requireShelf, hshelf, position?_split h hold, bind, Except.bind,
      Memory.store]

/-- Replacing a document with others around it. -/
theorem replace_split (hshelf : s.shelf? c = some ⟨"id", as ++ old :: bs⟩) (hold : documentId? old = some id)
    (h : ∀ e ∈ as ++ bs, documentId? e ≠ some id) (d : Document) :
    s.replace c id (.str id) d = (.ok d, s.setDocuments c (as ++ d :: bs)) := by
  simp only [Memory.replace, Memory.requireShelf, hshelf, requirePosition_split h hold, bind, Except.bind, Memory.store]
  simp

/-- Removing a document with others around it. -/
theorem delete_split (hshelf : s.shelf? c = some ⟨"id", as ++ old :: bs⟩) (hold : documentId? old = some id)
    (h : ∀ e ∈ as ++ bs, documentId? e ≠ some id) : s.delete c id (.str id) = (.ok (), s.setDocuments c (as ++ bs)) := by
  simp only [Memory.delete, Memory.requireShelf, hshelf, requirePosition_split h hold, bind, Except.bind, Memory.store]
  rw [List.eraseIdx_append_of_length_le (Nat.le_refl _), Nat.sub_self]
  rfl

/-- Replacing a document that is not there. -/
theorem replace_absent (hshelf : s.shelf? c = some ⟨key, ds⟩) (h : ∀ d ∈ ds, documentId? d ≠ some id) (partition : Json)
    (d : Document) : ∃ reason, s.replace c id partition d = (.error (.notFound reason), s) := by
  refine ⟨"Resource Not Found: " ++ id, ?_⟩
  simp only [Memory.replace, Memory.requireShelf, hshelf, requirePosition_absent h, bind, Except.bind, Memory.store]

/-- Removing a document that is not there. -/
theorem delete_absent (hshelf : s.shelf? c = some ⟨key, ds⟩) (h : ∀ d ∈ ds, documentId? d ≠ some id) (partition : Json) :
    ∃ reason, s.delete c id partition = (.error (.notFound reason), s) := by
  refine ⟨"Resource Not Found: " ++ id, ?_⟩
  simp only [Memory.delete, Memory.requireShelf, hshelf, requirePosition_absent h, bind, Except.bind, Memory.store]

end

section

variable {c : Container} {s : Memory} {m : Records} {id : String} {d old : Document}

/-- Creating a document whose identifier is taken. -/
theorem create_taken (h : Holds c s m) (hm : m id = some old) (hid : documentId? d = some id) :
    ∃ reason, s.create c d = (.error (.conflict reason), s) := by
  obtain ⟨ds, hshelf, hds⟩ := h.lists
  exact create_eq hshelf (hm ▸ hds.stands id) hid

/-- Creating a document whose identifier is free. -/
theorem create_free (h : Holds c s m) (hm : m id = none) (hid : documentId? d = some id) (hd : Storable d) :
    ∃ s', s.create c d = (.ok d, s') ∧ Holds c s' (m.set id (some d)) := by
  obtain ⟨ds, hshelf, hds⟩ := h.lists
  have hput : Lists (ds ++ [d]) (m.set id (some d)) := .put (by rwa [List.append_nil]) hm hid hd
  exact ⟨_, create_eq hshelf (hm ▸ hds.stands id) hid, h.set hput⟩

/-- Storing a document under its identifier. -/
theorem upsert_any (h : Holds c s m) (hid : documentId? d = some id) (hd : Storable d) :
    ∃ s', s.upsert c d = (.ok d, s') ∧ Holds c s' (m.set id (some d)) := by
  obtain ⟨ds, hshelf, hds⟩ := h.lists
  cases hm : m id with
  | none =>
    have hput : Lists (ds ++ [d]) (m.set id (some d)) := .put (by rwa [List.append_nil]) hm hid hd
    refine ⟨_, ?_, h.set hput⟩
    simp only [Memory.upsert, requireId, hid, Memory.requireShelf, hshelf, position?_absent (hds.absent hm), bind, Except.bind,
      Memory.store]
  | some old =>
    obtain ⟨hold, as, bs, rfl⟩ := hds.split hm
    refine ⟨_, ?_, h.set (hds.replace hold hid hd)⟩
    simp only [Memory.upsert, requireId, hid, Memory.requireShelf, hshelf, position?_split (hds.around hold) hold, bind, Except.bind,
      Memory.store]
    simp

/-- Replacing a record. -/
theorem replace_found (h : Holds c s m) (hm : m id = some old) (hid : documentId? d = some id) (hd : Storable d) :
    ∃ s', s.replace c id (.str id) d = (.ok d, s') ∧ Holds c s' (m.set id (some d)) := by
  obtain ⟨ds, hshelf, hds⟩ := h.lists
  obtain ⟨hold, as, bs, rfl⟩ := hds.split hm
  exact ⟨_, replace_split hshelf hold (hds.around hold) d, h.set (hds.replace hold hid hd)⟩

/-- Removing a record. -/
theorem delete_found (h : Holds c s m) (hm : m id = some old) :
    ∃ s', s.delete c id (.str id) = (.ok (), s') ∧ Holds c s' (m.set id none) := by
  obtain ⟨ds, hshelf, hds⟩ := h.lists
  obtain ⟨hold, as, bs, rfl⟩ := hds.split hm
  exact ⟨_, delete_split hshelf hold (hds.around hold), h.set (hds.remove hold)⟩

end

/-! ## Finding records -/

/-- A text equals an identifier exactly if it is that. -/
theorem holds_equals_str {j : Json} {id : String} : Comparison.equals.Holds j (.str id) ↔ j = .str id := by
  cases j <;> simp [Comparison.Holds, Json.compare?, Json.same]

/-- The condition on the identifier holds of just those documents that have it. -/
theorem passes_id_iff {d : Document} {id : String} :
    (Condition.compare .equals (.text id)).Passes .small .sensitive (Fields.get? d "id") ↔ documentId? d = some id := by
  rw [Condition.Passes, documentId?]
  cases Fields.get? d "id" with
  | none => simp
  | some j => cases j <;> simp [holds_equals_str, Operand.toJson, Json.str?]

/-- The query for an identifier selects the documents that have it. -/
theorem compileFindById_means (id : String) (select : Select) :
    ∃ compiled condition, compileFindById id select = .ok compiled ∧
      parseQuery compiled.spec.query = .ok ⟨projected? select, some condition, []⟩ ∧
      ∀ d : Document, Scope.eval ⟨d, Fields.ofList compiled.spec.parameters⟩ condition =
        .ok (documentId? d == some id) := by
  have hid : Quotable "id" := by decide
  obtain ⟨f, b, hf, hs⟩ := reading.condition_stands hid .sensitive (c := .compare .equals (.text id))
    (fun _ _ h => by cases h) ⟨(), []⟩
  have hcompiled : compileFindById id select = .ok (finish b select (some f) Keyed.empty) := by
    unfold Compile.Yields at hf
    rw [compileFindById, hf]
  have htexts := hs.texts (u := ()) trivial
  cases htexts with
  | cons htext _ =>
    have hparse : parseQuery (queryText select (some (f.render placeholder)) Keyed.empty) = _ :=
      parseQuery_queryText select (.some htext.formula) nofun
    refine ⟨_, _, hcompiled, hparse, fun d => ?_⟩
    have hbound := bound_parameters b select (some f) Keyed.empty
    rw [hs.params, List.nil_append, Clause.allOperands, List.flatMap_singleton] at hbound
    refine (Clause.eval_formula _ hbound d).trans (congrArg Except.ok ?_)
    rw [Bool.eq_iff_iff, beq_iff_eq]
    exact decide_eq_true_iff.trans passes_id_iff

/-- Selecting by a test that never fails. -/
theorem filterM_ok {α ε : Type} {f : α → Except ε Bool} {p : α → Bool} (h : ∀ a, f a = .ok (p a)) (xs : List α) :
    xs.filterM f = .ok (xs.filter p) := by
  have haux : ∀ xs acc : List α, List.filterAuxM f xs acc = .ok ((xs.filter p).reverse ++ acc) := by
    intro xs
    induction xs with
    | nil => intro acc; rfl
    | cons x xs ih =>
      intro acc
      rw [List.filterAuxM, h, List.filter_cons]
      cases p x with
      | true => exact (ih _).trans (by simp)
      | false => exact ih _
  rw [List.filterM, haux]
  simp [bind, Except.bind, pure, Except.pure]

/-- The query for an identifier finds the document that has it, as much of it as is selected. -/
theorem query_byId {s : Memory} {c : Container} {ds : List Document} {key id : String} {found : Option Document}
    (hshelf : s.shelf? c = some ⟨key, ds⟩) (h : Stands id ds found) {select : Select} {compiled : Compiled}
    (hcompiled : compileFindById id select = .ok compiled) : s.query c compiled.spec (some 1) none =
      .ok ⟨some (.arr (found.toList.map fun d => .obj (projectFields (projected? select) d))), none⟩ := by
  obtain ⟨_, condition, hmeant, hparse, hmeans⟩ := compileFindById_means id select
  cases hcompiled.symm.trans hmeant
  have hmatching : matching (Fields.ofList compiled.spec.parameters) (some condition) ds = .ok found.toList := by
    rw [matching, filterM_ok hmeans, h.filter_eq]
  simp only [Memory.query, hparse, Memory.requireShelf, hshelf, hmatching, Except.mapError, bind, Except.bind]
  cases found <;> rfl

/-- The store of containers, with a clock and a source of identifiers. -/
def surroundings (clock : Nat → Instant) (ids : Nat → String) : Surroundings service Memory := ⟨Memory.answer, clock, ids, 0⟩

section

variable {clock : Nat → Instant} {ids : Nat → String} {c : Container} {w : World service Memory} {m : Records}

variable (clock ids) in
/-- A call, and what is made of its answer. -/
theorem ask_yields {α : Type} (hfailure : w.store.failure = none) (call : service.Call)
    {answer : Except StoreError (service.Answer call)} {s : Memory} (hact : w.store.act call = (answer, s))
    (refusal : StoreError → Error) (f : service.Answer call → α) :
    Yields (surroundings clock ids) (do
      let a ← Operation.ask call refusal
      return f a) w ((answer.mapError refusal).map f) { w with log := w.log ++ [call], store := s } := by
  have hcall := Yields.call (surroundings clock ids) call (answerUnless_of_none hfailure hact) (·.mapError refusal)
  cases answer with
  | ok a => exact Yields.bind rfl hcall (.pure _ _)
  | error e => exact Yields.bind_error rfl hcall _

variable (clock ids) in
/-- Finding a document by its identifier, where one has it at most. -/
theorem find_yields {ds : List Document} {key id : String} {found : Option Document} (hfailure : w.store.failure = none)
    (hshelf : w.store.shelf? c = some ⟨key, ds⟩) (h : Stands id ds found) (select : Select) :
    ∃ log, (findById c id select).Yields (surroundings clock ids) w
      (.ok (found.map fun d => strip (projectFields (projected? select) d))) { w with log } := by
  obtain ⟨compiled, -, hcompiled, -⟩ := compileFindById_means id select
  have hquery := query_byId hshelf h hcompiled
  have hact : w.store.act (.query c compiled.spec (some 1) none) =
      (.ok ⟨some (.arr (found.toList.map fun d => .obj (projectFields (projected? select) d))), none⟩, w.store) := by
    rw [Memory.act, hquery]
    rfl
  have hask := Yields.call (surroundings clock ids) (.query c compiled.spec (some 1) none) (answerUnless_of_none hfailure hact)
    (·.mapError .storeFailure)
  refine ⟨w.log ++ [.query c compiled.spec (some 1) none], ?_⟩
  rw [findById, hcompiled]
  refine Yields.bind rfl (a := compiled) (Yields.of _ _) (Yields.bind rfl hask ?_)
  cases found <;> rfl

variable (clock ids) in
/-- Finding a record by its identifier. -/
theorem findById_yields (h : Holds c w.store m) (id : String) (select : Select) :
    ∃ log, (findById c id select).Yields (surroundings clock ids) w
      (.ok ((m id).map fun d => strip (projectFields (projected? select) d))) { w with log } := by
  obtain ⟨ds, hshelf, hds⟩ := h.lists
  exact find_yields clock ids h.failure hshelf (hds.stands id) select

variable {id : String} {d : Document}

/-- The partition of a document in a container that is partitioned by the identifier. -/
theorem partitionValue_id (hc : c.partitionKey = "id") (hid : Fields.get? d "id" = some (.str id)) :
    partitionValue c d = .ok (.str id) := by
  rw [partitionValue, hc, hid]

/-- Storing a document whatever is there. -/
theorem upsert_brings (hid : Fields.get? d "id" = some (.str id)) (hd : Storable d) :
    (upsert c d).Brings (surroundings clock ids) (Holds c) m (fun r => outcome r = .ok d) (m.set id (some d)) := by
  intro w h
  obtain ⟨s, hs, hs'⟩ := upsert_any h (documentId?_eq_some_iff.2 hid) hd
  exact ⟨_, _, (Yields.call (surroundings clock ids) (.upsert c d) (answerUnless_of_none h.failure hs) _).bind rfl (.pure _ _),
    congrArg Except.ok (strip_of_storable hd), hs', rfl, rfl⟩

/-- What a failed write of a new record means: a conflict is reported by the identifier. -/
def taken (id : String) : StoreError → Error
  | .conflict _ => .alreadyExists id
  | e => .storeFailure e

/-- Storing a new record with the check is one call. -/
theorem insert_call (hc : c.partitionKey = "id") (hid : Fields.get? d "id" = some (.str id)) :
    insert c d .existenceChecked = (do
      let stored : Document ← Operation.ask (I := service) (.create c d) (taken id)
      return strip stored) := by
  rw [insert, hid, partitionValue_id hc hid]
  rfl

/-- Storing a new record keeps the contract. -/
theorem insert_brings (hc : c.partitionKey = "id") (m : Records) (policy : WritePolicy) (hd : Storable d)
    (hid : Fields.get? d "id" = some (.str id)) :
    (insert c d policy).Brings (surroundings clock ids) (Holds c) m (fun r => outcome r = (m.insert policy id d).1)
      (m.insert policy id d).2 := by
  have hdocument := documentId?_eq_some_iff.2 hid
  cases policy with
  | unchecked =>
    have hinsert : insert c d .unchecked = upsert c d := by
      rw [insert, hid, partitionValue_id hc hid]
      rfl
    rw [hinsert, Records.insert_unchecked]
    exact upsert_brings hid hd
  | existenceChecked =>
    rw [insert_call hc hid]
    intro w h
    cases hm : m id with
    | none =>
      obtain ⟨s, hs, hs'⟩ := create_free h hm hdocument hd
      rw [Records.insert_free hm]
      exact ⟨_, _, (Yields.call (surroundings clock ids) (.create c d) (answerUnless_of_none h.failure hs) _).bind rfl (.pure _ _),
        congrArg Except.ok (strip_of_storable hd), hs', rfl, rfl⟩
    | some old =>
      obtain ⟨reason, hs⟩ := create_taken h hm hdocument
      rw [Records.insert_taken hm]
      refine ⟨.error (.alreadyExists id), { w with log := w.log ++ [.create c d] }, ?_, rfl, h, rfl, rfl⟩
      exact (Yields.call (surroundings clock ids) (.create c d) (answerUnless_of_none h.failure hs) _).bind_error rfl _

variable (clock ids) in
/-- Finding all of a record. -/
theorem findAll_yields (h : Holds c w.store m) (id : String) :
    ∃ log, (findById c id Select.all).Yields (surroundings clock ids) w (.ok (m id)) { w with log } := by
  obtain ⟨ds, -, hds⟩ := h.lists
  obtain ⟨log, hfind⟩ := findById_yields clock ids h id Select.all
  refine ⟨log, ?_⟩
  have hall : (m id).map (fun d => strip (projectFields (projected? Select.all) d)) = m id := by
    cases hm : m id with
    | none => rfl
    | some d => exact congrArg some (strip_of_storable (hds.stored hm).1)
  rwa [hall] at hfind

/-- Replacing a record that was read is one call. Changes of the identifier, which is the partition key too, have no effect. -/
theorem replace_call (hc : c.partitionKey = "id") {old : Document} (hid : Fields.get? old "id" = some (.str id))
    (changes : Document) : replace c id old changes = (do
      let stored : Document ← Operation.ask (I := service)
        (.replace c id (.str id) (Fields.put (Fields.putAll old changes) "id" (.str id))) (missing id)
      return strip stored) := by
  rw [replace, partitionValue_id hc hid, hc]
  cases Fields.get? changes "id" with
  | none => rfl
  | some requested =>
    simp only [bne_self_eq_false, Bool.and_false]
    rfl

/-- Replacing a record by what changes make of it. -/
theorem replace_brings (hc : c.partitionKey = "id") {old changes : Document} (hm : m id = some old) (h : Changing changes)
    (hid : Fields.get? old "id" = some (.str id)) (hold : Storable old) :
    (replace c id old changes).Brings (surroundings clock ids) (Holds c) m
      (fun r => outcome r = .ok (Fields.putAll old changes)) (m.set id (some (Fields.putAll old changes))) := by
  have hmerged := h.get?_id hid
  have hstorable := hold.putAll h.storable
  intro w hw
  obtain ⟨s, hs, hs'⟩ := replace_found hw hm (d := Fields.putAll old changes) (documentId?_eq_some_iff.2 hmerged) hstorable
  rw [replace_call hc hid, Fields.put_of_get? hmerged]
  have hcall := Yields.call (surroundings clock ids) (.replace c id (.str id) _) (answerUnless_of_none hw.failure hs)
    (·.mapError (missing id))
  exact ⟨_, _, hcall.bind rfl (.pure _ _), congrArg Except.ok (strip_of_storable hstorable), hs', rfl, rfl⟩

/-- An operation after finding all of a record. -/
theorem brings_after_find {α : Type} {next : Option Document → Operation service α} {P : Except Error α → Prop}
    {m' : Records} (h : (next (m id)).Brings (surroundings clock ids) (Holds c) m P m') :
    (findById c id Select.all >>= next).Brings (surroundings clock ids) (Holds c) m P m' := by
  intro w hw
  obtain ⟨log, hfind⟩ := findAll_yields clock ids hw id
  obtain ⟨r, w', hnext, hr, hw', hreadings, hdrawn⟩ := h { w with log } ⟨hw.failure, hw.lists⟩
  exact ⟨r, w', hfind.bind rfl hnext, hr, hw', hreadings, hdrawn⟩

/-- A record as its container lists it. -/
theorem Holds.record (h : Holds c w.store m) (hm : m id = some d) : Storable d ∧ Fields.get? d "id" = some (.str id) := by
  obtain ⟨ds, -, hds⟩ := h.lists
  exact hds.stored hm

/-- Changing a record keeps the contract. -/
theorem update_brings (hc : c.partitionKey = "id") (m : Records) (policy : WritePolicy) (id : String) {changes : Document}
    (h : Changing changes) :
    (update c id changes policy).Brings (surroundings clock ids) (Holds c) m (fun r => outcome r = (m.update policy id changes).1)
      (m.update policy id changes).2 := by
  intro w hw
  refine brings_after_find ?_ w hw
  cases hm : m id with
  | some old =>
    obtain ⟨hold, hid⟩ := hw.record hm
    rw [Records.update_found hm]
    exact replace_brings hc hm h hid hold
  | none =>
    cases policy with
    | existenceChecked =>
      rw [Records.update_missing hm]
      exact fun w hw => ⟨_, w, .of _ _, rfl, hw, rfl, rfl⟩
    | unchecked =>
      have hid : Fields.get? (Fields.putAll [("id", .str id)] changes) "id" = some (.str id) := h.get?_id rfl
      simp only [Fields.put_of_get? hid, partitionValue_id hc hid]
      rw [Records.update_unchecked, hm]
      exact upsert_brings hid ((Storable.ofId id).putAll h.storable)

/-- Removing a record keeps the contract. -/
theorem delete_brings (hc : c.partitionKey = "id") (m : Records) (policy : WritePolicy) (id : String) :
    (delete c id policy).Brings (surroundings clock ids) (Holds c) m (fun r => outcome r = (m.delete policy id).1)
      (m.delete policy id).2 := by
  intro w hw
  refine brings_after_find ?_ w hw
  cases hm : m id with
  | none =>
    cases policy with
    | existenceChecked =>
      rw [Records.delete_missing hm]
      exact fun w hw => ⟨_, w, .of _ _, rfl, hw, rfl, rfl⟩
    | unchecked =>
      rw [Records.delete_unchecked, Records.set_none hm]
      exact fun w hw => ⟨_, w, .pure _ _, rfl, hw, rfl, rfl⟩
  | some old =>
    obtain ⟨-, hid⟩ := hw.record hm
    rw [Records.delete_found hm]
    intro w hw
    obtain ⟨s, hs, hs'⟩ := delete_found hw hm
    simp only [partitionValue_id hc hid]
    exact ⟨_, _, (Yields.of _ _).bind rfl
      (Yields.call (surroundings clock ids) (.delete c id (.str id)) (answerUnless_of_none hw.failure hs) _), rfl, hs', rfl, rfl⟩

/-- What a query projects a document to is enough for the selection. -/
theorem project_strip (select : Select) (d : Document) :
    select.project (strip (projectFields (projected? select) d)) = select.project (strip d) := by
  cases hp : projected? select with
  | none => rfl
  | some names =>
    have hselected : select.selected? = some names := by
      rw [projected?] at hp
      split at hp
      · cases hp
      · next names' hs =>
        split at hp
        · rw [hs, hp]
        · cases hp
    rw [projectFields, Select.ofList_pick (Select.nodup_of_selected? hselected), Select.project, Select.project, hselected]
    refine List.filterMap_congr fun name hname => ?_
    rw [get?_strip, get?_strip, Select.get?_pick, if_pos hname]

/-- What a query projects a record to is enough for the selection. -/
theorem project_projected (select : Select) (hd : Storable d) :
    select.project (strip (projectFields (projected? select) d)) = select.project d := by
  rw [project_strip, strip_of_storable hd]

/-- The operations on a container that is partitioned by the identifier keep the contract. -/
theorem adapter_keeps (hc : c.partitionKey = "id") : (adapter c).Keeps (surroundings clock ids) (Holds c) where
  idField := rfl
  findById := by
    intro m id select w hw
    obtain ⟨log, hfind⟩ := findById_yields clock ids hw id select
    refine ⟨_, _, hfind, ⟨_, rfl, ?_⟩, ⟨hw.failure, hw.lists⟩, rfl, rfl⟩
    cases hm : m id with
    | none => rfl
    | some d => exact congrArg some (project_projected select (hw.record hm).1)
  insert := fun m policy _ _ hd hid => insert_brings hc m policy hd hid
  update := fun m policy id _ h => update_brings hc m policy id h
  delete := fun m policy id => delete_brings hc m policy id

end

end DocQuery.Cosmos
