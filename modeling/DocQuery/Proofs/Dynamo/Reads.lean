import DocQuery.Proofs.Dynamo.Stored
import DocQuery.Proofs.Dynamo.Texts

/-!
# What a read selects

A read whose tests never fail goes through all items of a table, whatever its order, and returns those whose documents meet the
key condition and pass the filter (`read_spec`). If it fails, then over an item that cannot be read.
-/

namespace DocQuery.Dynamo

open Expression

/-- The items of a table with their documents. -/
def documents : List (String × Item) → Except AttributeFault (List (Item × Document))
  | [] => .ok []
  | (_, item) :: rest => do .ok ((item, ← toDocument item) :: (← documents rest))

theorem length_documents {items : List (String × Item)} {ds : List (Item × Document)} (h : documents items = .ok ds) :
    ds.length = items.length := by
  induction items generalizing ds with
  | nil => cases h; rfl
  | cons e items ih =>
    obtain ⟨k, item⟩ := e
    rw [documents] at h
    cases hd : toDocument item with
    | error fault => rw [hd] at h; cases h
    | ok d =>
      cases hrest : documents items with
      | error fault => rw [hd, hrest] at h; cases h
      | ok rest =>
        rw [hd, hrest] at h
        cases h
        rw [List.length_cons, List.length_cons, ih hrest]

/-- Items with their documents. -/
theorem documents_document {items : List (String × Item)} {es : List (Item × Document)} (h : documents items = .ok es) :
    ∀ e ∈ es, toDocument e.1 = .ok e.2 := by
  induction items generalizing es with
  | nil => cases h; exact List.forall_mem_nil _
  | cons entry items ih =>
    obtain ⟨d, hd, h⟩ := of_bind_eq_ok h
    obtain ⟨rest, hrest, h⟩ := of_bind_eq_ok h
    cases h
    exact List.forall_mem_cons.2 ⟨hd, ih hrest⟩

/-- Where all members have values, each of them has. -/
theorem toJson_of_toMembers {members values : Fields Json} (h : toMembers members = .ok values) :
    ∀ e ∈ members, ∃ j, toJson e.2 = .ok j := by
  induction members generalizing values with
  | nil => nofun
  | cons e members ih =>
    rw [toMembers] at h
    cases hj : toJson e.2 with
    | error fault => rw [hj] at h; cases h
    | ok j =>
      cases hrest : toMembers members with
      | error fault => rw [hj, hrest] at h; cases h
      | ok rest => exact List.forall_mem_cons.2 ⟨⟨j, hj⟩, ih hrest⟩

/-- An item with a key text and a document has a position. -/
theorem Rows.position_ok {rows : Rows} {item : Item} {key : String} {d : Document} (hk : rows.keyText item = .ok key)
    (hd : toDocument item = .ok d) (bySortKey : Bool) : ∃ position, rows.position bySortKey item = .ok position := by
  unfold Rows.position
  rw [hk]
  split
  · next sortKey _ =>
    cases hs : item.get? sortKey with
    | none => exact ⟨_, rfl⟩
    | some typed =>
      obtain ⟨j, hj⟩ := toJson_of_toMembers hd _ (Fields.mem_of_get? hs)
      simp only [hj]
      exact ⟨_, rfl⟩
  · exact ⟨_, rfl⟩

/-- A formula that never fails decides about documents. -/
theorem holds_of_passes {values : Fields Json} {f : Option Formula} {d : Document} {b : Bool}
    (h : Scope.passes ⟨d, values⟩ f = .ok b) : holds values f d = .ok b := by
  cases f with
  | none => cases h; rfl
  | some f =>
    rw [Scope.passes] at h
    rw [holds, h]
    rfl

namespace ReadPlan

/-- A plan whose tests never fail: what its key condition and its filter decide. -/
structure Decides (p : ReadPlan) (key filter : Document → Bool) : Prop where
  key : ∀ d, holds p.values p.keyCondition d = .ok (key d)
  filter : ∀ d, holds p.values p.filter d = .ok (filter d)

/-- A limit that no table of a size reaches. -/
def Ample (limit : Option Nat) (size : Nat) : Prop := ∀ n, limit = some n → n = 0 ∨ size ≤ n

variable {p : ReadPlan} {rows : Rows} {key filter : Document → Bool}

/-- The candidates are the items whose documents meet the key condition. -/
theorem candidates_ok (hp : p.Decides key filter) {items : List (String × Item)}
    (hk : ∀ e ∈ items, rows.keyText e.2 = .ok e.1) {ds : List (Item × Document)} (hd : documents items = .ok ds) :
    ∃ cs, p.candidates rows items = .ok cs ∧
      cs.map (fun c => (c.item, c.document)) = ds.filter fun e => key e.2 := by
  induction items generalizing ds with
  | nil => cases hd; exact ⟨[], rfl, rfl⟩
  | cons e items ih =>
    obtain ⟨k, item⟩ := e
    rw [documents] at hd
    cases hdocument : toDocument item with
    | error fault => rw [hdocument] at hd; cases hd
    | ok d =>
      cases hrest : documents items with
      | error fault => rw [hdocument, hrest] at hd; cases hd
      | ok rest =>
        rw [hdocument, hrest] at hd
        cases hd
        obtain ⟨cs, hcs, hmap⟩ := ih (fun e' h' => hk e' (List.mem_cons_of_mem _ h')) hrest
        obtain ⟨position, hposition⟩ := Rows.position_ok (hk _ List.mem_cons_self) hdocument p.bySortKey
        rw [candidates, hdocument]
        simp only [Except.mapError, bind, Except.bind, hp.key d]
        cases hkey : key d with
        | false => exact ⟨cs, hcs, by rw [hmap, List.filter_cons, hkey]; rfl⟩
        | true =>
          simp only [hposition, hcs, if_true]
          exact ⟨_, rfl, by rw [List.map_cons, hmap, List.filter_cons, if_pos hkey]⟩

/-- The candidates fail over the first item that cannot be read. -/
theorem candidates_error (hp : p.Decides key filter) {items : List (String × Item)}
    (hk : ∀ e ∈ items, rows.keyText e.2 = .ok e.1) {fault : AttributeFault} (hd : documents items = .error fault) :
    p.candidates rows items = .error (invalidAttribute fault) := by
  induction items with
  | nil => cases hd
  | cons e items ih =>
    obtain ⟨k, item⟩ := e
    rw [documents] at hd
    rw [candidates]
    cases hdocument : toDocument item with
    | error fault' => rw [hdocument] at hd; cases hd; rfl
    | ok d =>
      cases hrest : documents items with
      | ok rest => rw [hdocument, hrest] at hd; cases hd
      | error fault' =>
        rw [hdocument, hrest] at hd
        cases hd
        have hcs := ih (fun e' h' => hk e' (List.mem_cons_of_mem _ h')) hrest
        obtain ⟨position, hposition⟩ := Rows.position_ok (hk _ List.mem_cons_self) hdocument p.bySortKey
        simp only [Except.mapError, bind, Except.bind, hp.key d, hposition, hcs]
        cases key d <;> rfl

/-- What is collected are the candidates whose documents pass the filter. -/
theorem collect_eq (hp : p.Decides key filter) (cs : List Candidate) :
    p.collect cs = .ok ((cs.filter fun c => filter c.document).map fun c => .obj (projectItem p.projection c.item)) := by
  induction cs with
  | nil => rfl
  | cons c cs ih =>
    rw [collect, hp.filter]
    simp only [bind, Except.bind, ih]
    rw [List.filter_cons]
    cases filter c.document <;> rfl

/-- Arranging only changes the order. -/
theorem arrange_perm (p : ReadPlan) (cs : List Candidate) : (p.arrange cs).Perm cs := by
  have hsorted := List.mergeSort_perm cs fun a b => (a.position.order b.position).isLE
  rw [arrange]
  cases p.forward with
  | false => exact (List.reverse_perm _).trans hsorted
  | true => exact hsorted

/-- Under an ample limit everything is looked at. -/
theorem looked_eq {cs : List Candidate} (h : Ample p.limit cs.length) : p.looked cs = cs := by
  rw [looked]
  split
  · next n hn =>
    rcases h _ hn with h | h
    · cases h
    · exact List.take_of_length_le h
  · rfl

/-- A read that is not refused over its filter looks at the items behind its start, up to its limit. -/
theorem read_eq (h : p.keyCondition = none ∨ ∀ f, p.filter = some f → ∀ field ∈ f.paths, rows.isKey field = false) :
    p.read rows = (do
      let found ← p.candidates rows rows.items
      let behind ← p.afterStart rows (p.arrange found)
      let looked := p.looked behind
      let items ← p.collect looked
      let last := if looked.length < behind.length then looked.getLast?.map fun c => rows.keyOf c.item else none
      .ok ⟨some (.arr items), last⟩) := by
  rw [read]
  split
  · next k f hk hf =>
    have hnone : f.paths.find? rows.isKey = none := by
      refine List.find?_eq_none.2 fun field hfield => ?_
      rw [h.resolve_left (by rw [hk]; nofun) f hf field hfield]
      exact Bool.false_ne_true
    simp only [hnone]
  · rfl

/-- What a read selects, if every item can be read, and how it fails otherwise. -/
theorem read_spec (hp : p.Decides key filter) {t : Table} (hr : rows.Sound t)
    (hpaths : p.keyCondition = none ∨ ∀ f, p.filter = some f → ∀ field ∈ f.paths, t.isKey field = false)
    (hstart : p.start = none) (hlimit : Ample p.limit rows.items.length) :
    match documents rows.items with
    | .error fault => p.read rows = .error (invalidAttribute fault)
    | .ok ds => ∃ items, p.read rows = .ok ⟨some (.arr items), none⟩ ∧
        items.Perm ((ds.filter fun e => key e.2 && filter e.2).map fun e => .obj (projectItem p.projection e.1)) := by
  rw [read_eq (hr.isKey_eq ▸ hpaths)]
  cases hd : documents rows.items with
  | error fault =>
    rw [candidates_error hp hr.keyed hd]
    rfl
  | ok ds =>
    obtain ⟨cs, hcs, hmap⟩ := candidates_ok hp hr.keyed hd
    have hperm := p.arrange_perm cs
    have hlength : (p.arrange cs).length ≤ rows.items.length := by
      rw [hperm.length_eq, ← length_documents hd]
      have := congrArg List.length hmap
      rw [List.length_map] at this
      rw [this]
      exact List.length_filter_le _ _
    have hlooked : p.looked (p.arrange cs) = p.arrange cs :=
      looked_eq fun n hn => (hlimit n hn).imp_right (Nat.le_trans hlength)
    simp only [hcs, afterStart, hstart, bind, Except.bind, hlooked, collect_eq hp, Nat.lt_irrefl, if_false]
    refine ⟨_, rfl, (hperm.filter _).map _ |>.trans (List.Perm.of_eq ?_)⟩
    have hselected : (cs.map fun c => (c.item, c.document)).filter (fun e => filter e.2) =
        ds.filter fun e => key e.2 && filter e.2 := by
      rw [hmap, List.filter_filter]
      simp only [Bool.and_comm]
    rw [← hselected, List.filter_map, List.map_map]
    rfl

end ReadPlan

end DocQuery.Dynamo
