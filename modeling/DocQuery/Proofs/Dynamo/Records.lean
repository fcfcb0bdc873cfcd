import DocQuery.Proofs.Dynamo.Pages

/-!
# The records of a table and their order

A search goes through the records of a table, upward or downward: a query by the sort key and then by the key texts, a scan by the
key texts alone. The candidates of a read are the records that stand in the table (`Serves.standsIn_record`,
`Record.StandsIn.mem_standing`), and the order of their positions is the order of the records (`before_iff_record`).
-/

namespace DocQuery.Dynamo

/-- A record of a table: an item under its key text, and the document that it is read as. -/
structure Record where
  /-- The key text. -/
  key : String
  /-- The item. -/
  item : Item
  /-- The document. -/
  document : Document

namespace Record

/-- Whether a record stands in a table of a store. -/
def StandsIn (t : Table) (s : Memory) (r : Record) : Prop :=
  (r.key, r.item) ∈ (s.rows t).items ∧ toDocument r.item = .ok r.document

/-- Which records precede which by a field, if there is one: those whose value in it precedes, and of those whose values share a
place the ones with smaller key texts. By no field the key texts alone decide. -/
def Precedes (field? : Option String) (a b : Record) : Prop :=
  match field? with
  | some field => Json.Precedes (Fields.get? a.document field) (Fields.get? b.document field) ∨
      Json.SamePlace (Fields.get? a.document field) (Fields.get? b.document field) ∧ a.key < b.key
  | none => a.key < b.key

/-- Which records come before which in a direction: downward all is reversed. -/
def Before (field? : Option String) (direction : Direction) (a b : Record) : Prop :=
  match direction with
  | .ascending => a.Precedes field? b
  | .descending => b.Precedes field? a

end Record

/-! ## How a search goes -/

/-- The field by which a search goes: a query by the sort key of the table, if it has one, and a scan by none. -/
def sortField? (t : Table) (filter : Where) : Option String := if (keyPlan? t filter).isSome then t.sortKey else none

/-- In which direction a search goes: upward, unless a query asks for another direction of the sort key. Other orders are refused. -/
inductive Goes (t : Table) (filter : Where) (order : Order) : Direction → Prop
  | unasked (h : order.entries = []) : Goes t filter order .ascending
  | asked {sortKey : String} {direction : Direction} (hplan : (keyPlan? t filter).isSome = true) (hsort : t.sortKey = some sortKey)
      (h : order.entries = [(sortKey, direction)]) : Goes t filter order direction

/-- What a search looks at: a query at the documents that meet all conditions of the filter on the keys, a scan at every document. -/
def LooksAt (t : Table) (filter : Where) (d : Document) : Prop :=
  (keyPlan? t filter).isSome = true → ∀ e ∈ filter.entries, e.1 = t.partitionKey ∨ t.sortKey = some e.1 →
    e.2.Passes .casings (Fields.get? d e.1)

instance (t : Table) (filter : Where) (d : Document) : Decidable (LooksAt t filter d) := inferInstanceAs (Decidable (_ → _))

section

variable {t : Table} {filter : Where}

/-- The direction in which a search goes is the one that its call carries. -/
theorem Goes.forward {order : Order} {direction : Direction} (h : Goes t filter order direction) :
    ∃ forward, forward? t (keyPlan? t filter).isSome order = .ok forward ∧ forward.getD true = (direction == .ascending) := by
  cases h with
  | unasked h => exact ⟨none, by rw [forward?, h], rfl⟩
  | asked hplan hsort h =>
    refine ⟨some (direction == .ascending), ?_, rfl⟩
    rw [forward?, h, hplan, hsort]
    simp

/-- A read looks at what its search looks at. -/
theorem key_courseOf (forward : Option Bool) (take : Nat) (d : Document) :
    (courseOf t filter forward take).key d = decide (LooksAt t filter d) := by
  refine decide_eq_decide.2 ?_
  rw [LooksAt]
  cases hplan : keyPlan? t filter with
  | none => exact iff_of_true nofun nofun
  | some plan =>
    rw [← passes_keys_iff hplan]
    exact ⟨fun h _ => h plan rfl, fun h _ heq => Option.some.inj heq ▸ h rfl⟩

end

/-! ## Candidates are records -/

/-- What stands in a table of a store. -/
def Memory.standing (s : Memory) (t : Table) (bySortKey : Bool) : List Candidate :=
  (s.rows t).standing bySortKey (s.rows t).items

/-- The documents of the items of a table. -/
def Memory.documents (s : Memory) (t : Table) : List Document := (s.rows t).items.filterMap fun e => (toDocument e.2).toOption

/-- The record that a candidate is. -/
def Candidate.record (c : Candidate) : Record := ⟨c.position.key, c.item, c.document⟩

namespace Rows

variable {rows : Rows} {bySortKey : Bool} {items : List (String × Item)} {c : Candidate}

/-- Where every item stands under its own key and has a document, the candidates have the documents of the items. -/
theorem documents_standing (hk : ∀ e ∈ items, rows.keyText e.2 = .ok e.1) (hd : ∀ e ∈ items, ∃ d, toDocument e.2 = .ok d) :
    (rows.standing bySortKey items).map (·.document) = items.filterMap fun e => (toDocument e.2).toOption := by
  induction items with
  | nil => rfl
  | cons e items ih =>
    obtain ⟨hkey, hkeys⟩ := List.forall_mem_cons.1 hk
    obtain ⟨⟨d, hdocument⟩, hdocuments⟩ := List.forall_mem_cons.1 hd
    obtain ⟨position, hposition⟩ := position_ok hkey hdocument bySortKey
    have hrest := ih hkeys hdocuments
    rw [standing, List.filterMap_cons, List.filterMap_cons]
    simp only [hdocument, hposition, List.map_cons, Except.toOption]
    exact congrArg (d :: ·) hrest

/-- The position of a candidate has the value of its document in the sort key, if the read goes by the sort key. -/
theorem sortValue_of_mem_standing (h : c ∈ rows.standing bySortKey items) :
    c.position.sortValue = (if bySortKey then rows.sortKey else none).bind fun field => Fields.get? c.document field := by
  obtain ⟨-, hdocument, hposition⟩ := of_mem_standing h
  have hplaced : ∀ found : Except StoreError (Option Json),
      (found >>= fun sortValue => rows.keyText c.item >>= fun key => .ok (Position.mk sortValue key)) = .ok c.position →
      found = .ok c.position.sortValue := by
    intro found hfound
    obtain ⟨sortValue, hvalue, hfound⟩ := of_bind_eq_ok hfound
    obtain ⟨key, -, hfound⟩ := of_bind_eq_ok hfound
    rw [hvalue, ← Except.ok.inj hfound]
  unfold position at hposition
  cases hs : rows.sortKey with
  | none =>
    simp only [hs] at hposition
    rw [ite_self]
    exact (Except.ok.inj (hplaced _ hposition)).symm
  | some sortKey =>
    cases bySortKey with
    | false =>
      simp only [hs] at hposition
      exact (Except.ok.inj (hplaced _ hposition)).symm
    | true =>
      have hfield := get?_toDocument hdocument sortKey
      simp only [hs] at hposition
      cases hitem : Fields.get? c.item sortKey with
      | none =>
        simp only [hitem] at hfield hposition
        exact (Except.ok.inj (hplaced _ hposition)).symm.trans hfield.symm
      | some typed =>
        simp only [hitem] at hfield hposition
        obtain ⟨j, hj, hget⟩ := hfield
        rw [hj] at hposition
        exact (Except.ok.inj (hplaced _ hposition)).symm.trans hget.symm

end Rows

section

variable {t : Table} {s : Memory} {bySortKey : Bool} {a b c : Candidate} {r : Record}

/-- What stands in a table that can be read has the documents of all its items. -/
theorem Serves.documents_eq (h : Serves t s) (bySortKey : Bool) : (s.standing t bySortKey).map (·.document) = s.documents t :=
  Rows.documents_standing h.sound.keyed fun e he => (h.readable e he).document

/-- A candidate of a table that can be read is readable, and stands where its keys say. -/
theorem Serves.candidate (h : Serves t s) (hc : c ∈ s.standing t bySortKey) :
    Readable t c.item ∧ t.rows.position bySortKey c.item = .ok c.position := by
  obtain ⟨⟨e, he, hitem⟩, -, hposition⟩ := Rows.of_mem_standing hc
  exact ⟨hitem ▸ h.readable e he, (h.sound.position_eq bySortKey c.item).symm.trans hposition⟩

/-- A candidate is a record that stands in the table. -/
theorem Serves.standsIn_record (h : Serves t s) (hc : c ∈ s.standing t bySortKey) : c.record.StandsIn t s := by
  obtain ⟨⟨⟨key, item⟩, he, rfl⟩, hdocument, hposition⟩ := Rows.of_mem_standing hc
  obtain rfl : key = c.position.key :=
    Except.ok.inj ((h.sound.keyed _ he).symm.trans (Rows.keyText_of_position hposition))
  exact ⟨he, hdocument⟩

/-- A record that stands in a table that can be read has a position. -/
theorem Record.StandsIn.position (hr : r.StandsIn t s) (h : Serves t s) (bySortKey : Bool) :
    ∃ p, t.rows.position bySortKey r.item = .ok p ∧ p.key = r.key := by
  obtain ⟨p, hp⟩ := Rows.position_ok (h.sound.keyed _ hr.1) hr.2 bySortKey
  exact ⟨p, (h.sound.position_eq bySortKey r.item).symm.trans hp,
    Except.ok.inj ((Rows.keyText_of_position hp).symm.trans (h.sound.keyed _ hr.1))⟩

/-- A record that stands in a table that can be read is a candidate at its position. -/
theorem Record.StandsIn.mem_standing (hr : r.StandsIn t s) (h : Serves t s) {p : Rows.Position}
    (hp : t.rows.position bySortKey r.item = .ok p) : ⟨p, r.item, r.document⟩ ∈ s.standing t bySortKey :=
  Rows.mem_standing hr.1 hr.2 ((h.sound.position_eq bySortKey r.item).trans hp)

/-- The positions of candidates precede each other as the records do. -/
theorem order_eq_lt_iff_record {sa sb : Memory} (ha : Serves t sa) (hb : Serves t sb) (hca : a ∈ sa.standing t bySortKey)
    (hcb : b ∈ sb.standing t bySortKey) :
    a.position.order b.position = .lt ↔ a.record.Precedes (if bySortKey then t.sortKey else none) b.record := by
  rw [Rows.Position.order_eq_lt_iff, Rows.sortValue_of_mem_standing hca, Rows.sortValue_of_mem_standing hcb,
    ha.sound.sortKey, hb.sound.sortKey]
  cases (if bySortKey then t.sortKey else none) with
  | some field => exact Iff.rfl
  | none => exact ⟨fun h => (h.resolve_left (Json.not_precedes_self none)).2, fun h => .inr ⟨.refl none, h⟩⟩

/-- A read comes to a candidate before it comes to another as their records come in its direction. -/
theorem before_iff_record {sa sb : Memory} (ha : Serves t sa) (hb : Serves t sb) (hca : a ∈ sa.standing t bySortKey)
    (hcb : b ∈ sb.standing t bySortKey) (direction : Direction) :
    a.position.Before (direction == .ascending) b.position ↔
      a.record.Before (if bySortKey then t.sortKey else none) direction b.record := by
  cases direction with
  | ascending => exact order_eq_lt_iff_record ha hb hca hcb
  | descending => exact Std.OrientedCmp.gt_iff_lt.trans (order_eq_lt_iff_record hb ha hcb hca)

end

end DocQuery.Dynamo
