import DocQuery.Cosmos.Memory
import DocQuery.Proofs.Dynamo.Attributes
import DocQuery.Proofs.Fields

/-!
# Records

What the operations on single records come to, whatever the store is: a function from identifiers to documents is read and
changed. A list of documents with distinct identifiers lists the records that it holds, and putting a document into the list,
replacing one or taking one out does the same to the records.
-/

namespace DocQuery

open Cosmos (documentId?)

/-! ## Documents that any store keeps -/

/-- Members are narrow where each of them is. -/
theorem Json.narrowMembers_iff {members : List (String × Json)} : NarrowMembers members ↔ ∀ e ∈ members, e.2.Narrow := by
  induction members with
  | nil => exact ⟨nofun, fun _ => trivial⟩
  | cons e members ih => rw [NarrowMembers, ih, List.forall_mem_cons]

/-- A document that every store returns as it was given: without integers beyond the signed 64-bit ones, and without fields that
are named like the properties which a service adds. -/
def Storable (d : Document) : Prop := ∀ e ∈ d, e.2.Narrow ∧ e.1 ∉ Cosmos.systemProperties

namespace Storable

variable {d : Document}

theorem narrow (h : Storable d) : Json.NarrowMembers d := Json.narrowMembers_iff.2 fun e he => (h e he).1

theorem filter (h : Storable d) (p : String × Json → Bool) : Storable (d.filter p) :=
  fun e he => h e (List.mem_filter.1 he).1

theorem put (h : Storable d) {name : String} {j : Json} (hj : j.Narrow) (hn : name ∉ Cosmos.systemProperties) :
    Storable (Fields.put d name j) := by
  intro e he
  rcases Fields.mem_put he with rfl | he
  · exact ⟨hj, hn⟩
  · exact h e he

theorem putText (h : Storable d) {name : String} (hn : name ∉ Cosmos.systemProperties) (text : String) :
    Storable (Fields.put d name (.str text)) :=
  h.put trivial hn

/-- An identifier alone is storable. -/
theorem ofId (id : String) : Storable [("id", .str id)] :=
  List.forall_mem_singleton.2 ⟨trivial, by simp [Cosmos.systemProperties]⟩

theorem putAll (h : Storable d) {entries : Document} (he : Storable entries) : Storable (Fields.putAll d entries) :=
  fun e hm => (Fields.mem_putAll hm).elim (he e) (h e)

end Storable

/-! ## Records -/

/-- The records of an entity by their identifiers. -/
abbrev Records := String → Option Document

namespace Records

/-- No records. -/
def empty : Records := fun _ => none

/-- The records with one put in, replaced or taken out. -/
def set (m : Records) (id : String) (d : Option Document) : Records := fun other => if other = id then d else m other

theorem set_set (m : Records) (id : String) (d e : Option Document) : (m.set id d).set id e = m.set id e := by
  funext other
  simp only [set]
  split <;> rfl

/-- Storing a new record. -/
def insert (m : Records) (policy : WritePolicy) (id : String) (d : Document) : Except Error.Kind Document × Records :=
  match m id, policy with
  | some _, .existenceChecked => (.error .alreadyExists, m)
  | _, _ => (.ok d, m.set id (some d))

/-- Changing fields of a record. Unchecked, a record that is not there is made of its identifier and the changes. -/
def update (m : Records) (policy : WritePolicy) (id : String) (changes : Document) : Except Error.Kind Document × Records :=
  match m id, policy with
  | none, .existenceChecked => (.error .notFound, m)
  | found, _ =>
    let d := Fields.putAll (found.getD [("id", .str id)]) changes
    (.ok d, m.set id (some d))

/-- Removing a record. -/
def delete (m : Records) (policy : WritePolicy) (id : String) : Except Error.Kind Unit × Records :=
  match m id, policy with
  | none, .existenceChecked => (.error .notFound, m)
  | _, _ => (.ok (), m.set id none)

section

variable {m : Records} {id : String} {d : Document}

theorem insert_unchecked (m : Records) (id : String) (d : Document) :
    m.insert .unchecked id d = (.ok d, m.set id (some d)) := by
  unfold insert
  cases m id <;> rfl

theorem insert_free (h : m id = none) (policy : WritePolicy) (d : Document) :
    m.insert policy id d = (.ok d, m.set id (some d)) := by
  unfold insert
  rw [h]

theorem insert_taken (h : m id = some d) (e : Document) : m.insert .existenceChecked id e = (.error .alreadyExists, m) := by
  unfold insert
  rw [h]

theorem update_missing (h : m id = none) (changes : Document) :
    m.update .existenceChecked id changes = (.error .notFound, m) := by
  unfold update
  rw [h]

theorem update_unchecked (m : Records) (id : String) (changes : Document) :
    m.update .unchecked id changes = (.ok (Fields.putAll ((m id).getD [("id", .str id)]) changes),
      m.set id (some (Fields.putAll ((m id).getD [("id", .str id)]) changes))) := by
  unfold update
  cases m id <;> rfl

theorem update_found (h : m id = some d) (policy : WritePolicy) (changes : Document) :
    m.update policy id changes = (.ok (Fields.putAll d changes), m.set id (some (Fields.putAll d changes))) := by
  unfold update
  rw [h]
  rfl

theorem delete_missing (h : m id = none) : m.delete .existenceChecked id = (.error .notFound, m) := by
  unfold delete
  rw [h]

theorem delete_unchecked (m : Records) (id : String) : m.delete .unchecked id = (.ok (), m.set id none) := by
  unfold delete
  cases m id <;> rfl

theorem delete_found (h : m id = some d) (policy : WritePolicy) : m.delete policy id = (.ok (), m.set id none) := by
  unfold delete
  rw [h]

/-- Taking out what is not there changes nothing. -/
theorem set_none (h : m id = none) : m.set id none = m := by
  funext other
  rw [set]
  split
  · next he => rw [he, h]
  · rfl

end

end Records

/-! ## Lists of records -/

/-- A document's identifier is what stands in its field. -/
theorem documentId?_eq_some_iff {d : Document} {id : String} :
    documentId? d = some id ↔ Fields.get? d "id" = some (.str id) := by
  rw [documentId?]
  cases Fields.get? d "id" with
  | none => simp
  | some j => cases j <;> simp [Json.str?]

/-- Documents of which at most one has an identifier: none, or one with others around it. -/
inductive Stands (id : String) : List Document → Option Document → Prop
  | absent {ds : List Document} : (∀ d ∈ ds, documentId? d ≠ some id) → Stands id ds none
  | alone {as bs : List Document} {d : Document} : documentId? d = some id → (∀ e ∈ as ++ bs, documentId? e ≠ some id) →
    Stands id (as ++ d :: bs) (some d)

namespace Stands

variable {ds : List Document} {id : String} {found : Option Document}

/-- The documents with the identifier are the one that is found. -/
theorem filter_eq (h : Stands id ds found) : ds.filter (fun d => documentId? d == some id) = found.toList := by
  have hnone : ∀ es : List Document, (∀ e ∈ es, documentId? e ≠ some id) →
      es.filter (fun d => documentId? d == some id) = [] := fun es hes =>
    List.filter_eq_nil_iff.2 fun e he => by simpa using hes e he
  cases h with
  | absent h => exact hnone _ h
  | alone hid h =>
    rw [List.filter_append, List.filter_cons_of_pos (by simpa using hid), hnone _ fun e he => h e (List.mem_append_left _ he),
      hnone _ fun e he => h e (List.mem_append_right _ he)]
    rfl

/-- At most one document has the identifier. -/
theorem length_le (h : Stands id ds found) : (ds.filter fun d => documentId? d == some id).length ≤ 1 := by
  rw [h.filter_eq]
  cases found <;> simp

/-- Where at most one document has the identifier, it stands there once or not at all. -/
theorem of_length_le (h : (ds.filter fun d => documentId? d == some id).length ≤ 1) : ∃ found, Stands id ds found := by
  have hnot : ∀ es : List Document, es.filter (fun d => documentId? d == some id) = [] → ∀ e ∈ es, documentId? e ≠ some id :=
    fun es hes e he => by simpa using List.filter_eq_nil_iff.1 hes e he
  match hfilter : ds.filter fun d => documentId? d == some id with
  | [] => exact ⟨none, .absent (hnot ds hfilter)⟩
  | [d] =>
    obtain ⟨as, bs, rfl, has, hid, hbs⟩ := List.filter_eq_cons_iff.1 hfilter
    refine ⟨some d, .alone (by simpa using hid) fun e he => ?_⟩
    rcases List.mem_append.1 he with he | he
    · simpa using has e he
    · exact hnot bs hbs e he
  | _ :: _ :: _ =>
    rw [hfilter] at h
    exact absurd h (by simp)

/-- Among documents of different identifiers one at most has a given one. -/
theorem of_nodup (h : (ds.map documentId?).Nodup) (id : String) : ∃ found, Stands id ds found := by
  by_cases hmem : some id ∈ ds.map documentId?
  · obtain ⟨d, hd, hid⟩ := List.mem_map.1 hmem
    obtain ⟨as, bs, rfl⟩ := List.append_of_mem hd
    have hnodup := (List.perm_middle.map documentId?).nodup_iff.1 h
    exact ⟨some d, .alone hid fun e he heq => (List.nodup_cons.1 hnodup).1 (List.mem_map.2 ⟨e, he, heq.trans hid.symm⟩)⟩
  · exact ⟨none, .absent fun d hd heq => hmem (List.mem_map.2 ⟨d, hd, heq⟩)⟩

/-- One more document, where none has its identifier. -/
theorem append (h : Stands id ds none) {d : Document} (hid : documentId? d = some id) : Stands id (ds ++ [d]) (some d) := by
  cases h with
  | absent h => exact .alone hid (by rwa [List.append_nil])

end Stands

/-- Documents with distinct identifiers, which are the records. -/
structure Lists (ds : List Document) (m : Records) : Prop where
  storable : ∀ d ∈ ds, Storable d
  identified : ∀ d ∈ ds, ∃ id, documentId? d = some id
  distinct : (ds.map documentId?).Nodup
  find : ∀ id, ds.find? (fun d => documentId? d == some id) = m id

namespace Lists

variable {as bs ds : List Document} {d old : Document} {id : String} {m : Records}

theorem empty : Lists [] Records.empty := ⟨nofun, nofun, List.nodup_nil, fun _ => rfl⟩

/-- A record that is there stands somewhere in the list. -/
theorem split (h : Lists ds m) (hm : m id = some d) : documentId? d = some id ∧ ∃ as bs, ds = as ++ d :: bs := by
  have hfind := h.find id
  rw [hm, List.find?_eq_some_iff_append] at hfind
  obtain ⟨hid, as, bs, hds, -⟩ := hfind
  exact ⟨beq_iff_eq.1 hid, as, bs, hds⟩

/-- A record is storable and has its identifier. -/
theorem stored (h : Lists ds m) (hm : m id = some d) : Storable d ∧ Fields.get? d "id" = some (.str id) := by
  obtain ⟨hid, as, bs, rfl⟩ := h.split hm
  exact ⟨h.storable d (by simp), documentId?_eq_some_iff.1 hid⟩

/-- A record that is not there stands nowhere in the list. -/
theorem absent (h : Lists ds m) (hm : m id = none) : ∀ d ∈ ds, documentId? d ≠ some id := by
  have hfind := h.find id
  rw [hm, List.find?_eq_none] at hfind
  exact fun d hd => by simpa using hfind d hd

/-- Around a document stand no others with its identifier. -/
theorem around (h : Lists (as ++ old :: bs) m) (hold : documentId? old = some id) :
    ∀ d ∈ as ++ bs, documentId? d ≠ some id := by
  have hdistinct := h.distinct
  rw [List.map_append, List.map_cons, List.nodup_middle, List.nodup_cons, ← List.map_append] at hdistinct
  intro d hd he
  exact hdistinct.1 (List.mem_map.2 ⟨d, hd, he.trans hold.symm⟩)

/-- The record with an identifier stands in the list once, or not at all. -/
theorem stands (h : Lists ds m) (id : String) : Stands id ds (m id) := by
  cases hm : m id with
  | none => exact .absent (h.absent hm)
  | some d =>
    obtain ⟨hid, as, bs, rfl⟩ := h.split hm
    exact .alone hid (h.around hid)

/-- Taking a document out of the list. -/
theorem remove (h : Lists (as ++ old :: bs) m) (hold : documentId? old = some id) : Lists (as ++ bs) (m.set id none) := by
  have hsub : List.Sublist (as ++ bs) (as ++ old :: bs) := (List.sublist_cons_self old bs).append_left as
  refine ⟨fun d hd => h.storable d (hsub.subset hd), fun d hd => h.identified d (hsub.subset hd),
    h.distinct.sublist (hsub.map _), fun other => ?_⟩
  rw [Records.set]
  split
  · next he =>
    subst he
    rw [List.find?_eq_none]
    exact fun d hd => by simpa using h.around hold d hd
  · next he =>
    rw [← h.find other, List.find?_append, List.find?_append, List.find?_cons_of_neg (by simpa [hold] using Ne.symm he)]

/-- Putting a new document into the list. -/
theorem put (h : Lists (as ++ bs) m) (hm : m id = none) (hid : documentId? d = some id) (hd : Storable d) :
    Lists (as ++ d :: bs) (m.set id (some d)) := by
  have habsent := h.absent hm
  refine ⟨fun e he => ?_, fun e he => ?_, ?_, fun other => ?_⟩
  · rcases List.mem_cons.1 (List.perm_middle.subset he) with rfl | he
    · exact hd
    · exact h.storable e he
  · rcases List.mem_cons.1 (List.perm_middle.subset he) with rfl | he
    · exact ⟨id, hid⟩
    · exact h.identified e he
  · rw [List.map_append, List.map_cons, List.nodup_middle, List.nodup_cons, ← List.map_append]
    refine ⟨fun hmem => ?_, h.distinct⟩
    obtain ⟨e, he, heq⟩ := List.mem_map.1 hmem
    exact habsent e he (heq.trans hid)
  · rw [Records.set, List.find?_append]
    split
    · next he =>
      subst he
      have hnone : as.find? (fun d => documentId? d == some other) = none :=
        List.find?_eq_none.2 fun e he => by simpa using habsent e (List.mem_append_left bs he)
      rw [hnone, Option.none_or, List.find?_cons_of_pos (by simpa using hid)]
    · next he =>
      rw [← h.find other, List.find?_append, List.find?_cons_of_neg (by simpa [hid] using Ne.symm he)]

/-- Replacing a document in the list. -/
theorem replace (h : Lists (as ++ old :: bs) m) (hold : documentId? old = some id) (hid : documentId? d = some id)
    (hd : Storable d) : Lists (as ++ d :: bs) (m.set id (some d)) := by
  have hput := (h.remove hold).put (if_pos rfl) hid hd
  rwa [Records.set_set] at hput

/-- A document of the list is the record with its identifier. -/
theorem record (h : Lists ds m) (hd : d ∈ ds) (hid : documentId? d = some id) : m id = some d := by
  obtain ⟨as, bs, rfl⟩ := List.append_of_mem hd
  have hnone : as.find? (fun d => documentId? d == some id) = none :=
    List.find?_eq_none.2 fun e he => by simpa using h.around hid e (List.mem_append_left bs he)
  rw [← h.find id, List.find?_append, hnone, Option.none_or, List.find?_cons_of_pos (by simpa using hid)]

/-- The documents are the records. -/
theorem mem_iff (h : Lists ds m) : d ∈ ds ↔ ∃ id, m id = some d := by
  constructor
  · intro hd
    obtain ⟨id, hid⟩ := h.identified d hd
    exact ⟨id, h.record hd hid⟩
  · rintro ⟨id, hm⟩
    obtain ⟨-, as, bs, rfl⟩ := h.split hm
    simp

/-- Two lists of the same records hold the same documents. -/
theorem perm {es : List Document} (h : Lists ds m) (h' : Lists es m) : ds.Perm es :=
  (List.perm_ext_iff_of_nodup h.distinct.of_map h'.distinct.of_map).2 fun _ => h.mem_iff.trans h'.mem_iff.symm

end Lists

end DocQuery
