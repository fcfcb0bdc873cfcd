import DocQuery.Proofs.Dynamo.Ledger
import DocQuery.Proofs.Dynamo.Positions
import DocQuery.Proofs.Dynamo.Selection

/-!
# The first record of a partition

Where a table has a sort key, the record with an identifier is the first one of its partition. Which one that is does not depend on
what is selected of it (`firstRequest_finds`), so whoever looks for the key of a record comes by the record that a reader finds. It is
the only one that comes before all others, so it stays the first one as long as the keys of the partition stay the same.
-/

namespace DocQuery.Dynamo

open Expression

variable {t : Table} {rows : Rows} {id : String}

/-- The items of a filed table have documents. -/
theorem document_of_filed (h : rows.Filed) : ∀ e ∈ rows.items, ∃ d, toDocument e.2 = .ok d := fun e he => by
  obtain ⟨d, hd⟩ := h.documents e he
  exact ⟨Json.settledMembers d, hd ▸ toMembers_ofMembers d⟩

/-- A value that is read as a text is that text. -/
theorem eq_str_of_settled {j : Json} (h : j.settled = .str id) : j = .str id := by
  cases j <;> first | exact h | cases h

/-- A field is read as a text exactly if it is that text. -/
theorem get?_settledMembers_str_iff {d : Document} {name : String} :
    Fields.get? (Json.settledMembers d) name = some (.str id) ↔ Fields.get? d name = some (.str id) := by
  refine ⟨fun h => ?_, get?_settledMembers_str⟩
  rw [get?_settledMembers] at h
  obtain ⟨j, hj, hsettled⟩ := Option.map_eq_some_iff.1 h
  rw [hj, eq_str_of_settled hsettled]

/-- An attribute of a document's item is that of a text exactly if the field is the text. -/
theorem get?_ofDocument_str_iff {d : Document} {name : String} :
    (ofDocument d).get? name = some (ofJson (.str id)) ↔ Fields.get? d name = some (.str id) := by
  rw [get?_ofDocument]
  constructor
  · intro h
    obtain ⟨j, hj, htyped⟩ := Option.map_eq_some_iff.1 h
    have hread := toJson_ofJson_settled j
    rw [htyped, toJson_ofJson_settled] at hread
    rw [hj, eq_str_of_settled (Except.ok.inj hread).symm]
  · intro h
    rw [h]
    rfl

/-- The key condition of a text is met where that text is stored. -/
theorem passes_text_iff {stored : Option Json} :
    (KeyCondition.single (.compare .equals (.text id))).Passes stored ↔ stored = some (.str id) := by
  constructor
  · rintro ⟨s, rfl, hs⟩
    have hequal : s.compare? (.str id) = some .eq := hs
    cases s with
    | str text =>
      have htext : compare text id = .eq := Option.some.inj hequal
      rw [Std.LawfulEqCmp.eq_of_compare htext]
    | null => cases hequal
    | bool b => cases hequal
    | num n => cases hequal
    | arr items => cases hequal
    | obj members => cases hequal
  · rintro rfl
    exact ⟨_, rfl, congrArg some (Rows.compare_self id)⟩

/-! ## The first item -/

/-- An item that stands under its key text as the first of the partition of an identifier: it has the identifier for its partition
key, and any other item that has it comes later in the order of a query. -/
structure Table.First (t : Table) (id : String) (rows : Rows) (key : String) (item : Item) : Prop where
  found : rows.find? key = some item
  partition : item.get? t.partitionKey = some (ofJson (.str id))
  before : ∀ k other, rows.find? k = some other → other.get? t.partitionKey = some (ofJson (.str id)) →
    k = key ∨ ∃ p q, t.rows.position true item = .ok p ∧ t.rows.position true other = .ok q ∧ p.Before true q

/-- There is one first item. -/
theorem Table.First.unique {key k : String} {item other : Item} (h : t.First id rows key item) (h' : t.First id rows k other) :
    k = key ∧ other = item := by
  obtain rfl : k = key := by
    obtain hkey | ⟨p, q, hp, hq, hbefore⟩ := h.before k other h'.found h'.partition
    · exact hkey
    · obtain hkey | ⟨q', p', hq', hp', hbefore'⟩ := h'.before key item h.found h.partition
      · exact hkey.symm
      · obtain rfl : p = p' := Except.ok.inj (hp.symm.trans hp')
        obtain rfl : q = q' := Except.ok.inj (hq.symm.trans hq')
        exact absurd hbefore' hbefore.asymm
  exact ⟨rfl, Option.some.inj (h'.found.symm.trans h.found)⟩

namespace ReadPlan

variable {p : ReadPlan} {key filter : Document → Bool}

/-- A read of a single item, without a filter and from the beginning, comes by the first of those whose documents meet the key
condition, or by none where none does. -/
theorem visited_one (hp : p.Decides key filter) (hfilter : p.filter = none) (hstart : p.start = none) (hlimit : p.limit = some 1)
    (hfiled : rows.Filed) :
    ∃ (found : Option Candidate) (last : Option Item), p.visited rows = .ok (found.toList, last) ∧
      (∀ c, found = some c → (c ∈ rows.standing p.bySortKey rows.items ∧ key c.document = true) ∧
        ∀ other ∈ rows.standing p.bySortKey rows.items, key other.document = true →
          other = c ∨ c.position.Before p.forward other.position) ∧
      (found = none → ∀ c ∈ rows.standing p.bySortKey rows.items, key c.document = false) := by
  have hdocuments := document_of_filed hfiled
  obtain ⟨cs, hcs⟩ : ∃ cs, cs = (rows.standing p.bySortKey rows.items).filter fun c => key c.document := ⟨_, rfl⟩
  have hcandidates : p.candidates rows rows.items = .ok cs := hcs ▸ candidates_standing hp hfiled.keyed hdocuments
  have hmem (c : Candidate) : c ∈ p.arrange cs ↔ c ∈ rows.standing p.bySortKey rows.items ∧ key c.document = true := by
    rw [(p.arrange_perm cs).mem_iff, hcs, List.mem_filter]
  have hordered : (p.arrange cs).Pairwise fun a b => a.position.Before p.forward b.position := by
    refine p.arrange_ordered ?_
    rw [hcs]
    exact (Rows.nodup_standing hfiled.sorted hfiled.keyed hdocuments).sublist (List.filter_sublist.map _)
  have haccepted : p.accepted rows = .ok () := by
    rw [accepted, hfilter]
    cases p.keyCondition <;> rfl
  have hlooked : p.looked (p.arrange cs) = (p.arrange cs).head?.toList := by
    simp only [looked, hlimit]
    exact List.take_one
  have hvisited : ∃ last, p.visited rows = .ok ((p.arrange cs).head?.toList, last) := by
    simp only [visited, haccepted, ReadPlan.found, hcandidates, afterStart, hstart, hlooked, bind, Except.bind]
    exact ⟨_, rfl⟩
  obtain ⟨last, hlast⟩ := hvisited
  refine ⟨(p.arrange cs).head?, last, hlast, fun c hc => ?_, fun hnone c hc => ?_⟩
  · obtain ⟨rest, hrest⟩ := List.head?_eq_some_iff.1 hc
    refine ⟨(hmem c).1 (List.mem_of_mem_head? hc), fun other hother hkey => ?_⟩
    have harranged := (hmem other).2 ⟨hother, hkey⟩
    rw [hrest] at harranged hordered
    exact (List.mem_cons.1 harranged).imp_right ((List.pairwise_cons.1 hordered).1 other)
  · refine Bool.eq_false_iff.2 fun hkey => ?_
    have harranged := (hmem c).2 ⟨hc, hkey⟩
    rw [List.head?_eq_none_iff.1 hnone] at harranged
    cases harranged

end ReadPlan

/-- An attribute of an item of a filed table is that of a text exactly if it is read as the text. -/
theorem get?_str_iff (hfiled : rows.Filed) {e : String × Item} (he : e ∈ rows.items) {d : Document} (hd : toDocument e.2 = .ok d)
    {name : String} : e.2.get? name = some (ofJson (.str id)) ↔ Fields.get? d name = some (.str id) := by
  obtain ⟨d', hd'⟩ := hfiled.documents e he
  rw [hd'] at hd ⊢
  obtain rfl : Json.settledMembers d' = d := Except.ok.inj ((toMembers_ofMembers d').symm.trans hd)
  exact get?_ofDocument_str_iff.trans get?_settledMembers_str_iff.symm

/-- Of the candidates of a query, the one that comes before all others with an identifier is the first item of its partition. -/
theorem first_of_standing (hfiled : rows.Filed) (hsound : rows.Sound t) {c : Candidate} (hc : c ∈ rows.standing true rows.items)
    (hid : Fields.get? c.document t.partitionKey = some (.str id))
    (hfirst : ∀ other ∈ rows.standing true rows.items, Fields.get? other.document t.partitionKey = some (.str id) →
      other = c ∨ c.position.Before true other.position) : ∃ key, t.First id rows key c.item := by
  obtain ⟨⟨⟨key, item⟩, he, rfl⟩, hdocument, hposition⟩ := Rows.of_mem_standing hc
  refine ⟨key, Fields.get?_of_mem hfiled.sorted.nodup he, (get?_str_iff hfiled he hdocument).2 hid, fun k other hother hpartition => ?_⟩
  have hmem : (k, other) ∈ rows.items := Fields.mem_of_get? hother
  obtain ⟨d, hd⟩ := document_of_filed hfiled _ hmem
  obtain ⟨p, hp⟩ := Rows.position_ok (hfiled.keyed _ hmem) hd true
  rcases hfirst _ (Rows.mem_standing hmem hd hp) ((get?_str_iff hfiled hmem hd).1 hpartition) with hsame | hbefore
  · obtain rfl : other = c.item := congrArg Candidate.item hsame
    exact .inl (Except.ok.inj ((hfiled.keyed _ hmem).symm.trans (hfiled.keyed _ he)))
  · rw [hsound.position_eq] at hposition hp
    exact .inr ⟨c.position, p, hposition, hp, hbefore⟩

/-- Whatever they select, the requests for the first record of a partition find its first item, or none where it has no items. -/
theorem firstRequest_finds (hfiled : rows.Filed) (hsound : rows.Sound t) (id : String) :
    ∃ (requests : Select → QueryRequest) (found : Option Candidate) (last : Option Item),
      (∀ select, firstRequest t id select = .ok (requests select)) ∧
      (∀ c, found = some c → (∃ key, t.First id rows key c.item) ∧ toDocument c.item = .ok c.document ∧
        Fields.get? c.document t.partitionKey = some (.str id)) ∧
      (found = none → ∀ e ∈ rows.items, ∃ d, toDocument e.2 = .ok d ∧ Fields.get? d t.partitionKey ≠ some (.str id)) ∧
      ∀ (s : Memory) (select : Select), s.table? t.name = some rows →
        s.query (requests select) = .ok (Page.of select (found.toList, last)) := by
  have hempty : Where.Valid Keyed.empty ∧ WithinLimit Keyed.empty := ⟨rfl, List.forall_mem_nil _⟩
  have hread (select : Select) := readTexts?_stands select (plain_partition t id) hempty.1 hempty.2
  choose texts tables hread hstand using hread
  obtain ⟨key, hkey, hparsed⟩ := exists_keyCondition (List.cons_ne_nil _ _) hstand
  have hdecides (select : Select) := decides_queryPlan (hstand select) hkey none (some 1) none
  have hpasses (d : Document) : (∀ e ∈ [(t.partitionKey, KeyCondition.single (.compare .equals (.text id)))],
      e.2.Passes (Fields.get? d e.1)) ↔ Fields.get? d t.partitionKey = some (.str id) := by
    rw [List.forall_mem_singleton, passes_text_iff]
  obtain ⟨found, last, hvisited, hfound, hnone⟩ := ReadPlan.visited_one (hdecides Select.all) rfl rfl rfl hfiled
  simp only [hpasses, decide_eq_true_eq, decide_eq_false_iff_not] at hfound hnone
  refine ⟨_, found, last, fun select => firstRequest_eq (hread select), fun c hc => ?_, fun hfound e he => ?_,
    fun s select htable => ?_⟩
  · obtain ⟨⟨hmem, hid⟩, hfirst⟩ := hfound c hc
    exact ⟨first_of_standing hfiled hsound hmem hid hfirst, (Rows.of_mem_standing hmem).2.1, hid⟩
  · obtain ⟨d, hd⟩ := document_of_filed hfiled e he
    obtain ⟨p, hp⟩ := Rows.position_ok (hfiled.keyed e he) hd true
    exact ⟨d, hd, hnone hfound _ (Rows.mem_standing he hd hp)⟩
  · rw [query_eq (hstand select) (hparsed select), requireTable_eq htable]
    refine (read_eq_of hdecides (fun _ => rfl) select rows).trans ?_
    rw [hvisited]
    have hall : (found.toList.filter fun c => decide (Where.Passes .casings Keyed.empty c.document)) = found.toList :=
      List.filter_eq_self.2 fun _ _ => decide_eq_true (List.forall_mem_nil _)
    simp only [Except.map, hall]

/-! ## Lookups -/

/-- In a table with a sort key, looking for the first record of a partition is looking for the record. -/
theorem firstOf_eq_send {sortKey : String} (hs : t.sortKey = some sortKey) (id : String) (select : Select) :
    firstOf t id select = Operation.send (I := service) (planFind t id select) (readFind t) := by
  have hfind := findById_eq_send t id select
  rwa [findById, hs] at hfind

/-- Whatever they select, lookups of an identifier find the first item of its partition, or none where no item has it. -/
structure FindsFirst (t : Table) (rows : Rows) (id : String) (found : Option Candidate) : Prop where
  first : ∀ c, found = some c → ∃ key, t.First id rows key c.item
  document : ∀ c, found = some c → toDocument c.item = .ok c.document
  partition : ∀ c, found = some c → Fields.get? c.document t.partitionKey = some (.str id)
  absent : found = none → ∀ e ∈ rows.items, ∃ d, toDocument e.2 = .ok d ∧ Fields.get? d t.partitionKey ≠ some (.str id)
  find : ∀ select, ∃ call, planFind t id select = .ok call ∧
    ∀ s : Memory, s.failure = none → s.table? t.name = some rows → ∃ answer, Memory.answer call s = (.ok answer, s) ∧
      readFind t call answer = .ok (found.map fun c => select.project c.document)

/-- What is found is an item of the table. -/
theorem FindsFirst.kept {found : Option Candidate} (h : FindsFirst t rows id found) (c : Candidate) (hc : found = some c) :
    ∃ key, (key, c.item) ∈ rows.items := by
  obtain ⟨key, hfirst⟩ := h.first c hc
  exact ⟨key, Fields.mem_of_get? hfirst.found⟩

/-- Where an item has an identifier for its partition key, there is a first item. -/
theorem exists_first (hfiled : rows.Filed) (hsound : rows.Sound t)
    (hid : ∃ e ∈ rows.items, e.2.get? t.partitionKey = some (ofJson (.str id))) : ∃ key item, t.First id rows key item := by
  obtain ⟨_, found, _, -, hfound, habsent, -⟩ := firstRequest_finds hfiled hsound id
  cases found with
  | none =>
    obtain ⟨e, he, hpartition⟩ := hid
    obtain ⟨d, hd, hne⟩ := habsent rfl e he
    exact absurd ((get?_str_iff hfiled he hd).1 hpartition) hne
  | some c =>
    obtain ⟨key, hfirst⟩ := (hfound c rfl).1
    exact ⟨key, c.item, hfirst⟩

/-- In a filed table with a sort key, lookups of an identifier find one item, or none. -/
theorem exists_findsFirst (hfiled : rows.Filed) (hsound : rows.Sound t) {sortKey : String} (hs : t.sortKey = some sortKey)
    (id : String) : ∃ found, FindsFirst t rows id found := by
  obtain ⟨requests, found, last, hrequests, hfound, habsent, hquery⟩ := firstRequest_finds hfiled hsound id
  refine ⟨found, fun c hc => (hfound c hc).1, fun c hc => (hfound c hc).2.1, fun c hc => (hfound c hc).2.2, habsent,
    fun select => ?_⟩
  refine ⟨.query (requests select), by simp only [planFind, hs, hrequests]; rfl, fun s hfailure htable => ?_⟩
  refine ⟨Page.of select (found.toList, last), ?_, ?_⟩
  · rw [Memory.answer, answerUnless_of_none hfailure rfl, Memory.act, hquery s select htable]
    rfl
  · have hdocument : ∀ c ∈ found.toList, toDocument c.item = .ok c.document := fun c hc =>
      (hfound c (Option.mem_toList.1 hc)).2.1
    simp only [readFind, hs, readFirst, pageOf, Page.of, readItems_candidates select hdocument]
    cases found <;> rfl

end DocQuery.Dynamo
