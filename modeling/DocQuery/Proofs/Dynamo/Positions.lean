import DocQuery.Proofs.Dynamo.Tables
import DocQuery.Proofs.Json.Order

/-!
# Positions in a read

Positions are ordered by the value of the sort key and then by the key text, so no two items of a table share one. A read goes
through the items that meet its key condition strictly in this order, and its start divides them into those that lie before it and
those that lie behind it. What lies behind the last item of a page is what is left of the page (`Remains.drop`).
-/

namespace DocQuery.Dynamo

open Std

/-! ## The order of positions -/

namespace Rows.Position

/-- Positions are compared by the value of the sort key, and then by the key text. -/
theorem order_eq :
    order = compareLex (fun a b => Json.sortCompare a.sortValue b.sortValue) (compareOn Rows.Position.key) := rfl

instance : TransCmp fun a b : Rows.Position => Json.sortCompare a.sortValue b.sortValue where
  eq_swap := by
    intro a b
    exact @OrientedCmp.eq_swap _ Json.sortCompare _ _ _
  isLE_trans := by
    intro a b c hab hbc
    exact @TransCmp.isLE_trans _ Json.sortCompare _ _ _ _ hab hbc

/-- The order of positions is total and transitive. -/
instance : TransCmp order := by
  rw [order_eq]
  infer_instance

/-- The comparison of positions puts first the one whose sort key precedes, and of two whose sort keys share a place the one with the
smaller key text. -/
theorem order_eq_lt_iff (p q : Rows.Position) :
    p.order q = .lt ↔ Json.Precedes p.sortValue q.sortValue ∨ Json.SamePlace p.sortValue q.sortValue ∧ p.key < q.key := by
  rw [order, Ordering.then_eq_lt, Json.sortCompare_eq_lt_iff, Json.sortCompare_eq_eq_iff]
  exact or_congr_right (and_congr_right fun _ => compareOfLessAndEq_eq_lt)

/-- The comparison of positions finds those equal whose sort keys share a place and whose key texts are one. -/
theorem order_eq_eq_iff (p q : Rows.Position) : p.order q = .eq ↔ Json.SamePlace p.sortValue q.sortValue ∧ p.key = q.key := by
  rw [order, Ordering.then_eq_eq, Json.sortCompare_eq_eq_iff]
  exact and_congr_right fun _ => Std.LawfulEqCmp.compare_eq_iff_eq

variable {forward : Bool} {p q r : Rows.Position}

/-- Positions that compare as equal have one key text. -/
theorem key_eq_of_order (h : p.order q = .eq) : p.key = q.key :=
  LawfulEqCmp.eq_of_compare (Ordering.then_eq_eq.1 h).2

/-- Whether a read comes to one position before it comes to another. -/
def Before (forward : Bool) (p q : Rows.Position) : Prop := p.order q = if forward then .lt else .gt

instance (forward : Bool) (p q : Rows.Position) : Decidable (p.Before forward q) :=
  inferInstanceAs (Decidable (_ = _))

theorem Before.trans (h : p.Before forward q) (h' : q.Before forward r) : p.Before forward r := by
  cases forward with
  | true => exact TransCmp.lt_trans h h'
  | false => exact TransCmp.gt_trans h h'

theorem not_before_of_order (h : p.order q = .eq) : ¬ p.Before forward q := by
  intro hbefore
  have hne := h.symm.trans hbefore
  cases forward <;> cases hne

theorem Before.asymm (h : p.Before forward q) : ¬ q.Before forward p :=
  fun h' => not_before_of_order (@ReflCmp.compare_self _ order _ _) (h.trans h')

/-- One position lies behind another in a read if the other comes before it. -/
theorem before_iff (forward : Bool) (p q : Rows.Position) : p.Before forward q ↔ q.order p = if forward then .gt else .lt := by
  cases forward with
  | true => exact OrientedCmp.gt_iff_lt.symm
  | false => exact OrientedCmp.gt_iff_lt

/-- Whether a position lies behind a bound, if there is one. -/
def Behind (forward : Bool) (bound : Option Rows.Position) (p : Rows.Position) : Prop := ∀ b ∈ bound, b.Before forward p

instance (forward : Bool) (bound : Option Rows.Position) (p : Rows.Position) : Decidable (p.Behind forward bound) :=
  inferInstanceAs (Decidable (∀ b ∈ bound, _))

theorem behind_none (forward : Bool) (p : Rows.Position) : p.Behind forward none := nofun

theorem behind_some : p.Behind forward (some q) ↔ q.Before forward p := by simp [Behind]

end Rows.Position

/-! ## The items of a table as candidates -/

namespace Rows

/-- The items that have a document and a position, as candidates of a read. -/
def standing (rows : Rows) (bySortKey : Bool) (items : List (String × Item)) : List Candidate :=
  items.filterMap fun e =>
    match toDocument e.2, rows.position bySortKey e.2 with
    | .ok document, .ok position => some ⟨position, e.2, document⟩
    | _, _ => none

variable {rows : Rows} {bySortKey : Bool} {items : List (String × Item)} {key : String} {item : Item} {p : Position}
  {c : Candidate}

/-- A position has the key text of the item. -/
theorem keyText_of_position (h : rows.position bySortKey item = .ok p) : rows.keyText item = .ok p.key := by
  have hplaced : ∀ sortValue : Option Json, (rows.keyText item >>= fun key => .ok (Position.mk sortValue key)) = .ok p →
      rows.keyText item = .ok p.key := by
    intro sortValue h
    obtain ⟨key, hkey, h⟩ := of_bind_eq_ok h
    cases h
    exact hkey
  unfold position at h
  split at h
  · split at h
    · obtain ⟨sortValue, -, h⟩ := of_bind_eq_ok h
      exact hplaced _ h
    · exact hplaced _ h
  · exact hplaced _ h

/-- The rows of a schema give an item the position that its keys alone give it. -/
theorem Sound.position_eq {t : Table} (h : rows.Sound t) (bySortKey : Bool) (item : Item) :
    rows.position bySortKey item = t.rows.position bySortKey item := by
  unfold position keyText
  rw [h.partitionKey, h.sortKey]
  rfl

/-- Items with one key text have one position. -/
theorem position_eq_of_key_eq {other : Item} {q : Position} (hp : rows.position bySortKey item = .ok p)
    (hq : rows.position bySortKey other = .ok q) (hkey : p.key = q.key) : p = q := by
  have haddress := (keyText_eq_iff (keyText_of_position hp)).1 (hkey ▸ keyText_of_position hq)
  rw [position_of_address haddress, hq] at hp
  exact (Except.ok.inj hp).symm

/-- Where every item stands under its own key and has a document, the candidates are the items under their key texts. -/
theorem entries_standing (hk : ∀ e ∈ items, rows.keyText e.2 = .ok e.1) (hd : ∀ e ∈ items, ∃ d, toDocument e.2 = .ok d) :
    (rows.standing bySortKey items).map (fun c => (c.position.key, c.item)) = items := by
  induction items with
  | nil => rfl
  | cons e items ih =>
    obtain ⟨hkey, hkeys⟩ := List.forall_mem_cons.1 hk
    obtain ⟨⟨d, hdocument⟩, hdocuments⟩ := List.forall_mem_cons.1 hd
    obtain ⟨position, hposition⟩ := position_ok hkey hdocument bySortKey
    have hrest := ih hkeys hdocuments
    rw [standing, List.filterMap_cons]
    have hsame : position.key = e.1 := Except.ok.inj ((keyText_of_position hposition).symm.trans hkey)
    simp only [hdocument, hposition, List.map_cons, hsame]
    exact congrArg (e :: ·) hrest

/-- Such candidates have different key texts, where the items are in their order. -/
theorem nodup_standing (hs : Sorted items) (hk : ∀ e ∈ items, rows.keyText e.2 = .ok e.1)
    (hd : ∀ e ∈ items, ∃ d, toDocument e.2 = .ok d) : ((rows.standing bySortKey items).map (·.position.key)).Nodup := by
  have hentries := congrArg Fields.names (@entries_standing _ bySortKey _ hk hd)
  rw [Fields.names, List.map_map] at hentries
  show ((rows.standing bySortKey items).map (Prod.fst ∘ fun c => (c.position.key, c.item))).Nodup
  rw [hentries]
  exact hs.nodup

/-- An item with a document and a position is a candidate. -/
theorem mem_standing {document : Document} (h : (key, item) ∈ items) (hd : toDocument item = .ok document)
    (hp : rows.position bySortKey item = .ok p) : ⟨p, item, document⟩ ∈ rows.standing bySortKey items :=
  List.mem_filterMap.2 ⟨(key, item), h, by simp only [hd, hp]⟩

/-- What a candidate is made of. -/
theorem of_mem_standing (h : c ∈ rows.standing bySortKey items) :
    (∃ e ∈ items, e.2 = c.item) ∧ toDocument c.item = .ok c.document ∧ rows.position bySortKey c.item = .ok c.position := by
  obtain ⟨e, he, hc⟩ := List.mem_filterMap.1 h
  split at hc
  · next document position hdocument hposition =>
    cases hc
    exact ⟨⟨e, he, rfl⟩, hdocument, hposition⟩
  · cases hc

end Rows

namespace ReadPlan

variable {p : ReadPlan} {rows : Rows} {key filter : Document → Bool} {items : List (String × Item)}

/-- The candidates of a read are those that meet its key condition. -/
theorem candidates_standing (hp : p.Decides key filter) (hk : ∀ e ∈ items, rows.keyText e.2 = .ok e.1)
    (hd : ∀ e ∈ items, ∃ d, toDocument e.2 = .ok d) :
    p.candidates rows items = .ok ((rows.standing p.bySortKey items).filter fun c => key c.document) := by
  induction items with
  | nil => rfl
  | cons e items ih =>
    obtain ⟨hkey, hkeys⟩ := List.forall_mem_cons.1 hk
    obtain ⟨⟨d, hdocument⟩, hdocuments⟩ := List.forall_mem_cons.1 hd
    obtain ⟨position, hposition⟩ := Rows.position_ok hkey hdocument p.bySortKey
    have hrest := ih hkeys hdocuments
    rw [Rows.standing] at hrest
    rw [candidates, Rows.standing, List.filterMap_cons]
    simp only [hdocument, hposition, hrest, hp.key, Except.mapError, bind, Except.bind, List.filter_cons]
    split <;> rfl

/-- Candidates under different key texts are arranged strictly in the order of the read. -/
theorem arrange_ordered (p : ReadPlan) {cs : List Candidate} (h : (cs.map (·.position.key)).Nodup) :
    (p.arrange cs).Pairwise fun a b => a.position.Before p.forward b.position := by
  have hfit := TotalPreorder.of_transCmp Rows.Position.order
  have hsorted := List.pairwise_mergeSort (fun a b c : Candidate => hfit.trans a.position b.position c.position)
    (fun a b => hfit.total a.position b.position) cs
  have hkeys : (cs.mergeSort fun a b => (a.position.order b.position).isLE).Pairwise
      fun a b => a.position.key ≠ b.position.key :=
    List.pairwise_map.1 (((List.mergeSort_perm cs _).map _).nodup_iff.2 h)
  have hlt : (cs.mergeSort fun a b => (a.position.order b.position).isLE).Pairwise
      fun a b => a.position.order b.position = .lt := by
    refine (hsorted.and hkeys).imp fun {a b} ⟨hle, hne⟩ => ?_
    cases horder : a.position.order b.position with
    | lt => rfl
    | eq => exact absurd (Rows.Position.key_eq_of_order horder) hne
    | gt => rw [horder] at hle; cases hle
  rw [arrange]
  cases p.forward with
  | true => exact hlt
  | false => exact List.pairwise_reverse.2 (hlt.imp fun h => OrientedCmp.gt_iff_lt.2 h)

end ReadPlan

/-! ## Pages -/

/-- How a search goes through a table. -/
structure Course where
  /-- Which documents are looked at. -/
  key : Document → Bool
  /-- Which of those are returned. -/
  passes : Document → Bool
  /-- What is returned is looked at. -/
  key_of_passes : ∀ d, passes d = true → key d = true
  /-- Whether it goes by the value of the sort key. -/
  bySortKey : Bool
  /-- Whether it goes upward. -/
  forward : Bool
  /-- How many documents are looked at for a page. -/
  take : Nat

/-- A plan for a page of a search. -/
structure ReadPlan.Takes (p : ReadPlan) (t : Table) (course : Course) (select : Select) (start : Option Item) : Prop where
  decides : ∃ rest, p.Decides course.key rest ∧ ∀ d, course.passes d = (course.key d && rest d)
  accepted : p.keyCondition = none ∨ ∀ f, p.filter = some f → ∀ field ∈ f.paths, t.isKey field = false
  projection : p.projection = select.selected?
  bySortKey : p.bySortKey = course.bySortKey
  forward : p.forward = course.forward
  limit : p.limit = some course.take
  start : p.start = start

/-- What of a table is left to a search behind a bound, in its order. -/
structure Remains (course : Course) (rows : Rows) (bound : Option Rows.Position) (cs : List Candidate) : Prop where
  perm : cs.Perm ((rows.standing course.bySortKey rows.items).filter
    fun c => course.key c.document && decide (c.position.Behind course.forward bound))
  ordered : cs.Pairwise fun a b => a.position.Before course.forward b.position

/-- What is left to a search is one list. -/
theorem Remains.unique {course : Course} {rows : Rows} {bound : Option Rows.Position} {cs cs' : List Candidate}
    (h : Remains course rows bound cs) (h' : Remains course rows bound cs') : cs = cs' :=
  (h.perm.trans h'.perm.symm).eq_of_pairwise (fun _ _ _ _ hab hba => absurd hba hab.asymm) h.ordered h'.ordered

/-- Where a start stands, if there is one. -/
def Rows.Starts (rows : Rows) (bySortKey : Bool) (start : Option Item) (bound : Option Rows.Position) : Prop :=
  match start with
  | none => bound = none
  | some item => ∃ p, rows.position bySortKey item = .ok p ∧ bound = some p

section

variable {course : Course} {rows : Rows} {bound : Option Rows.Position} {cs : List Candidate} {c last : Candidate} {n : Nat}

theorem Remains.mem_iff (h : Remains course rows bound cs) :
    c ∈ cs ↔ c ∈ rows.standing course.bySortKey rows.items ∧ course.key c.document = true ∧
      c.position.Behind course.forward bound := by
  rw [h.perm.mem_iff, List.mem_filter, Bool.and_eq_true, decide_eq_true_iff]

/-- Of candidates in order, the last of the first ones comes after the other first ones. -/
theorem before_last {forward : Bool} (h : cs.Pairwise fun a b => a.position.Before forward b.position)
    (hlast : (cs.take n).getLast? = some last) (hc : c ∈ cs.take n) : c = last ∨ c.position.Before forward last.position := by
  have hfirst := h.sublist (List.take_sublist n cs)
  obtain ⟨init, hinit⟩ := List.getLast?_eq_some_iff.1 hlast
  rw [hinit] at hfirst hc
  rcases List.mem_append.1 hc with hc | hc
  · exact .inr ((List.pairwise_append.1 hfirst).2.2 c hc last List.mem_cons_self)
  · exact .inl (List.mem_singleton.1 hc)

/-- Of candidates in order, those behind the last of the first ones are the others. -/
theorem filter_before_last {forward : Bool} (h : cs.Pairwise fun a b => a.position.Before forward b.position)
    (hlast : (cs.take n).getLast? = some last) :
    (cs.filter fun c => decide (last.position.Before forward c.position)) = cs.drop n := by
  obtain ⟨init, hinit⟩ := List.getLast?_eq_some_iff.1 hlast
  have hcs : cs = init ++ last :: cs.drop n := by
    rw [← List.singleton_append, ← List.append_assoc, ← hinit, List.take_append_drop]
  rw [hcs] at h
  obtain ⟨-, hrest, hbefore⟩ := List.pairwise_append.1 h
  have hfirst : init.filter (fun c => decide (last.position.Before forward c.position)) = [] :=
    List.filter_eq_nil_iff.2 fun c hc => by simpa using (hbefore c hc last List.mem_cons_self).asymm
  have hself : ¬ last.position.Before forward last.position := fun hself => hself.asymm hself
  have hothers : (cs.drop n).filter (fun c => decide (last.position.Before forward c.position)) = cs.drop n :=
    List.filter_eq_self.2 fun c hc => decide_eq_true ((List.pairwise_cons.1 hrest).1 c hc)
  conv_lhs => rw [hcs]
  rw [List.filter_append, hfirst, List.nil_append, List.filter_cons_of_neg (by simpa using hself), hothers]

/-- What is left behind the last item of a page. -/
theorem Remains.drop (h : Remains course rows bound cs) (hlast : (cs.take n).getLast? = some last) :
    Remains course rows (some last.position) (cs.drop n) := by
  have hbehind : last.position.Behind course.forward bound :=
    (h.mem_iff.1 (List.mem_of_mem_take (List.mem_of_getLast? hlast))).2.2
  refine ⟨?_, h.ordered.sublist (List.drop_sublist n cs)⟩
  have hperm := h.perm.filter fun c => decide (last.position.Before course.forward c.position)
  rw [filter_before_last h.ordered hlast, List.filter_filter] at hperm
  refine hperm.trans (List.Perm.of_eq (List.filter_congr fun c _ => ?_))
  rw [Bool.eq_iff_iff]
  simp only [Bool.and_eq_true, decide_eq_true_iff, Rows.Position.behind_some]
  exact ⟨fun ⟨hbefore, hkey, _⟩ => ⟨hkey, hbefore⟩,
    fun ⟨hkey, hbefore⟩ => ⟨hbefore, hkey, fun b hb => (hbehind b hb).trans hbefore⟩⟩

end

namespace ReadPlan

variable {p : ReadPlan} {rows : Rows} {bound : Option Rows.Position}

/-- A limit is how many candidates are looked at. -/
theorem looked_take {n : Nat} (h : p.limit = some n) (hpos : 1 ≤ n) (cs : List Candidate) : p.looked cs = cs.take n := by
  obtain ⟨m, rfl⟩ := Nat.exists_eq_add_of_le' hpos
  rw [looked, h]

/-- The candidates behind the start are those whose positions lie behind it. -/
theorem afterStart_eq (h : rows.Starts p.bySortKey p.start bound) (cs : List Candidate) :
    p.afterStart rows cs = .ok (cs.filter fun c => decide (c.position.Behind p.forward bound)) := by
  rw [afterStart]
  cases hstart : p.start with
  | none =>
    rw [hstart] at h
    obtain rfl : bound = none := h
    have hall : cs.filter (fun c => decide (c.position.Behind p.forward none)) = cs :=
      List.filter_eq_self.2 fun c _ => decide_eq_true (Rows.Position.behind_none _ _)
    rw [hall]
  | some item =>
    rw [hstart] at h
    obtain ⟨start, hposition, rfl⟩ := h
    simp only [hposition, bind, Except.bind]
    congr 1
    refine List.filter_congr fun c _ => ?_
    rw [Bool.eq_iff_iff, beq_iff_eq, decide_eq_true_iff, Rows.Position.behind_some]
    exact (Rows.Position.before_iff p.forward start c.position).symm

/-- A page of a search: of what is left behind its start, the first items that pass the filter, and the key of the last item that
was looked at, if there are more. -/
theorem read_page {t : Table} {s : Memory} {course : Course} {select : Select} {start : Option Item}
    (hp : p.Takes t course select start) (h : Serves t s) (hstart : (s.rows t).Starts course.bySortKey start bound)
    (hpos : 1 ≤ course.take) :
    ∃ cs, Remains course (s.rows t) bound cs ∧ p.read (s.rows t) = .ok
      ⟨some (.arr (((cs.take course.take).filter fun c => course.passes c.document).map
          fun c => .obj (projectItem select.selected? c.item))),
        if course.take < cs.length then (cs.take course.take).getLast?.map fun c => (s.rows t).keyOf c.item else none⟩ := by
  obtain ⟨rest, hdecides, hpasses⟩ := hp.decides
  have hdocument : ∀ e ∈ (s.rows t).items, ∃ d, toDocument e.2 = .ok d := fun e he => (h.readable e he).document
  have hkeys := @Rows.nodup_standing _ p.bySortKey _ h.sorted h.sound.keyed hdocument
  obtain ⟨found, hfound⟩ : ∃ found, found = ((s.rows t).standing p.bySortKey (s.rows t).items).filter
      fun c => course.key c.document := ⟨_, rfl⟩
  have hdistinct : (found.map (·.position.key)).Nodup := hfound ▸ hkeys.sublist (List.filter_sublist.map _)
  rw [← hp.bySortKey, ← hp.start] at hstart
  obtain ⟨cs, hcs⟩ : ∃ cs, cs = (p.arrange found).filter fun c => decide (c.position.Behind p.forward bound) := ⟨_, rfl⟩
  have hperm : cs.Perm (((s.rows t).standing course.bySortKey (s.rows t).items).filter
      fun c => course.key c.document && decide (c.position.Behind course.forward bound)) := by
    rw [hcs]
    refine ((p.arrange_perm found).filter _).trans (List.Perm.of_eq ?_)
    rw [hfound, List.filter_filter, hp.bySortKey, hp.forward]
    exact List.filter_congr fun c _ => Bool.and_comm _ _
  have hordered : cs.Pairwise fun a b => a.position.Before course.forward b.position := by
    rw [hcs, ← hp.forward]
    exact (p.arrange_ordered hdistinct).sublist List.filter_sublist
  have hremains : Remains course (s.rows t) bound cs := ⟨hperm, hordered⟩
  have hfilter : ((cs.take course.take).filter fun c => rest c.document) =
      (cs.take course.take).filter fun c => course.passes c.document := by
    refine List.filter_congr fun c hc => ?_
    rw [hpasses, (hremains.mem_iff.1 (List.mem_of_mem_take hc)).2.1, Bool.true_and]
  refine ⟨cs, hremains, ?_⟩
  rw [read_eq (h.sound.isKey_eq ▸ hp.accepted), candidates_standing hdecides h.sound.keyed hdocument, ← hfound]
  simp only [bind, Except.bind, afterStart_eq hstart, ← hcs, looked_take hp.limit hpos, collect_eq hdecides, hp.projection,
    hfilter, List.length_take, min_lt_iff, Nat.lt_irrefl, or_false]

end ReadPlan

end DocQuery.Dynamo
