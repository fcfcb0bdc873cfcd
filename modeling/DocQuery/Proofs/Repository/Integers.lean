import DocQuery.Proofs.Decimal.Integers
import DocQuery.Proofs.Dynamo.Casings
import DocQuery.Proofs.Repository.Searches

/-!
# Integers in searches

Numbers are compared as the nearest binary64 numbers, integers too. So a search compares integers as they are, and sorts records
by them, unless two different ones have the same nearest number: `searches_compare_integers`. Two integers of which one has less
than 53 bits never do.
-/

namespace DocQuery

/-! ## One condition -/

/-- Integers that are apart compare as they are. -/
theorem Json.compare?_ofInt64 {a b : Int64} (h : Decimal.Apart a.toInt b.toInt) :
    (Json.ofInt64 a).compare? (Json.ofInt64 b) = some (compare a.toInt b.toInt) :=
  congrArg some (Decimal.compare_integerPosition h)

/-- A stored integer meets a membership among others that it is apart from if it is one of them. -/
theorem Condition.passes_member_integers {folding : Folding} {mode : Mode} {a : Int64} {bs : List Int64}
    (h : ∀ b ∈ bs, Decimal.Apart a.toInt b.toInt) :
    (member false (bs.map .integer)).Passes folding mode (some (Json.ofInt64 a)) ↔ a ∈ bs := by
  have hequal : ∀ b ∈ bs, (Comparison.equals.Holds (Json.ofInt64 a) (Operand.integer b).toJson ↔ a = b) := fun b hb =>
    (Comparison.holds_iff_relates (Json.compare?_ofInt64 (h b hb)) .equals).trans Int64.toInt_inj
  simp only [Passes, Option.some.injEq, exists_eq_left', List.mem_map, exists_exists_and_eq_and]
  constructor
  · rintro ⟨b, hb, hholds⟩
    rwa [(hequal b hb).1 hholds]
  · intro ha
    exact ⟨a, ha, (hequal a ha).2 rfl⟩

/-! ## Whole searches -/

/-- How a search takes the integers of records: a comparison as the order of integers has it, a membership as the list of integers
has it, and the order of the records as that of the integers; for integers that are the same or have different nearest numbers. -/
structure TakesIntegers (seen : String → String) (folding : Folding) (w : Where) (key? : Option (String × Bool))
    (records found : List Document) : Prop where
  compared : ∀ d ∈ records, ∀ e ∈ w.entries, ∀ op (a b : Int64), .compare op (.integer b) ∈ e.2.conditions →
    w.PassesBut seen folding e (.compare op (.integer b)) d → Fields.get? d (seen e.1) = some (Json.ofInt64 a) →
    Decimal.Apart a.toInt b.toInt → (d ∈ found ↔ op.Relates a.toInt b.toInt)
  listed : ∀ d ∈ records, ∀ e ∈ w.entries, ∀ (a : Int64) (bs : List Int64), .member false (bs.map .integer) ∈ e.2.conditions →
    w.PassesBut seen folding e (.member false (bs.map .integer)) d → Fields.get? d (seen e.1) = some (Json.ofInt64 a) →
    (∀ b ∈ bs, Decimal.Apart a.toInt b.toInt) → (d ∈ found ↔ a ∈ bs)
  sorted : ∀ key ∈ key?, found.Pairwise fun x y => ∀ a b : Int64, Fields.get? x key.1 = some (Json.ofInt64 a) →
    Fields.get? y key.1 = some (Json.ofInt64 b) → Decimal.Apart a.toInt b.toInt →
    if key.2 then a.toInt ≤ b.toInt else b.toInt ≤ a.toInt

/-- What a search finds takes integers so. -/
theorem Found.takesIntegers {seen : String → String} {folding : Folding} {w : Where} {key? : Option (String × Bool)}
    {records found : List Document} (h : Found (fun d => decide (w.PassesUnder seen folding d)) key? records found) :
    TakesIntegers seen folding w key? records found where
  compared _ hd _ he _ _ _ hc hbut ha hapart := h.mem_iff_relates hd he hc hbut ha (Json.compare?_ofInt64 hapart)
  listed _ hd _ he _ _ hc hbut ha hapart := by
    rw [h.mem_iff_passes hd he hc hbut, ha]
    exact Condition.passes_member_integers hapart
  sorted key hkey :=
    (h.sorted key hkey).pairwise.imp fun hle _ _ ha hb hapart => hle _ _ _ _ ha hb (Json.compare?_ofInt64 hapart)

/-- Searches compare integers as they are, unless two different ones have the same nearest binary64 number, which two of which
one has less than 53 bits never do. A record that meets all other conditions and has an integer in a field is found by a
comparison with an integer exactly if the order of integers has it so, and by a membership exactly if the integer is listed; and
of two records with integers in the field that the search is sorted by, the one with the greater integer does not come before
the other. -/
theorem searches_compare_integers (name : String) (autoFields : AutoFields) (policy : WritePolicy) (query : QuerySettings)
    (clock : Nat → Instant) (ids : Nat → String) :
    EverySearchFinds name autoFields policy query clock ids TakesIntegers ∧
    ∀ a b : Int, a.natAbs < 2 ^ 53 ∨ b.natAbs < 2 ^ 53 → Decimal.Apart a b :=
  ⟨everySearchFinds name autoFields policy query clock ids Found.takesIntegers, fun _ _ => Decimal.apart_of_lt⟩

/-- Two orders of a customer on either side of 2⁵³, of which a search finds the greater one, in a container as in a table. -/
theorem searches_compare_integers_of_orders :
    let order (n : Int64) : Document := [("customer", .str "c-1"), ("n", Json.ofInt64 n)]
    let filter : Where := Keyed.ofList [("customer", ⟨[.compare .equals (.text "c-1")], .sensitive⟩),
      ("n", ⟨[.compare .gt (.integer 9007199254740991)], .sensitive⟩)]
    let args : FindArgs := ⟨filter, none, none, Select.all, Keyed.empty⟩
    let clock (n : Nat) : Instant := ⟨n, 0⟩
    let ids (n : Nat) := String.ofList (Decimal.naturalText n)
    let c : Cosmos.Container := ⟨"app", "orders", "customer"⟩
    let t : Dynamo.Table := ⟨"orders", "customer", some "n"⟩
    let shelf : Cosmos.Shelf := ⟨"customer", [order 9007199254740991, order 9007199254740993]⟩
    let put (n : Int64) : Dynamo.Call := .put ⟨"orders", Dynamo.ofDocument (order n), none, none, none⟩
    (∃ found : List Document, order 9007199254740993 ∈ found ∧ order 9007199254740991 ∉ found ∧
      (Repository.ofDocuments (.make "Order" .default .existenceChecked .default) (Cosmos.adapter c)).Returns
        (Cosmos.surroundings clock ids) args ⟨⟨[(("app", "orders"), shelf)], none⟩, 0, 0, []⟩
        (found.map fun d => args.select.project (Cosmos.strip d))) ∧
    ∃ found : List Document, order 9007199254740993 ∈ found ∧ order 9007199254740991 ∉ found ∧
      (Repository.ofDocuments (.make "Order" .default .existenceChecked .default) (Dynamo.adapter t)).Returns
        (Dynamo.surroundings clock ids) args
        ⟨(Dynamo.surroundings clock ids).after (Dynamo.Memory.empty.withTable t)
          [put 9007199254740993, put 9007199254740991], 0, 0, []⟩
        (found.map args.select.project) := by
  intro order filter args clock ids c t shelf put
  have hboth := (searches_compare_integers "Order" .default .existenceChecked .default clock ids).1
  have hmem : ("n", ⟨[.compare .gt (.integer 9007199254740991)], .sensitive⟩) ∈ filter.entries := .tail _ (.head _)
  have hapart : ∀ a : Int64, Decimal.Apart a.toInt (Int64.toInt 9007199254740991) :=
    fun _ => Decimal.apart_of_lt (.inr (by decide))
  -- both orders are of the customer, and only the integers tell them apart
  have hbut : ∀ {seen folding}, seen "customer" = "customer" → ∀ n, filter.PassesBut seen folding
      ("n", ⟨[.compare .gt (.integer 9007199254740991)], .sensitive⟩) (.compare .gt (.integer 9007199254740991)) (order n) := by
    intro seen folding hseen n e' he' c' hc' hne
    rcases List.mem_pair.1 he' with rfl | rfl
    · obtain rfl := List.mem_singleton.1 hc'
      rw [hseen]
      exact ⟨.str "c-1", rfl, rfl⟩
    · obtain rfl := List.mem_singleton.1 hc'
      exact absurd rfl hne
  have hfound : ∀ {seen folding key? found}, seen "customer" = "customer" → seen "n" = "n" →
      TakesIntegers seen folding filter key? shelf.documents found →
      order 9007199254740993 ∈ found ∧ order 9007199254740991 ∉ found := by
    intro seen folding key? found hcustomer hn htakes
    have hgreater : ∀ n, order n ∈ shelf.documents → (order n ∈ found ↔ Int64.toInt 9007199254740991 < n.toInt) := by
      intro n hd
      have hstored : Fields.get? (order n) (seen "n") = some (Json.ofInt64 n) := by
        rw [hn]
        rfl
      exact htakes.compared _ hd _ hmem .gt n _ (.head _) (hbut hcustomer n) hstored (hapart n)
    refine ⟨(hgreater _ (.tail _ (.head _))).2 (by decide), fun hless => ?_⟩
    exact absurd ((hgreater _ (.head _)).1 hless) (by decide)
  constructor
  · have hsearch : Cosmos.Searchable (.ofDocuments (.make "Order" .default .existenceChecked .default) (Cosmos.adapter c)) c shelf
        args 100 ⟨⟨[(("app", "orders"), shelf)], none⟩, 0, 0, []⟩ := ⟨rfl, rfl, by decide, rfl, ⟨rfl, rfl⟩, by decide⟩
    obtain ⟨found, -, htakes, hreturns⟩ := hboth.1 c args 100 shelf _ hsearch
    obtain ⟨hgreater, hless⟩ := hfound (by decide) (by decide) htakes
    exact ⟨found, hgreater, hless, hreturns⟩
  · have hput : ∀ n, Json.parse? (Json.obj (t.rows.keyOf (Dynamo.ofDocument (order n)))).text =
        some (.obj (t.rows.keyOf (Dynamo.ofDocument (order n)))) → (put n).Stores (Dynamo.Readable t) :=
      fun n h => ⟨⟨_, Dynamo.toMembers_ofMembers _⟩, h⟩
    have hcalls : ∀ call ∈ [put 9007199254740993, put 9007199254740991], call.Stores (Dynamo.Readable t) :=
      List.forall_mem_cons.2 ⟨hput _ (by cbv), List.forall_mem_singleton.2 (hput _ (by cbv))⟩
    have hsearch : Dynamo.Searchable (.ofDocuments (.make "Order" .default .existenceChecked .default) (Dynamo.adapter t)) t
        args none 100 ⟨(Dynamo.surroundings clock ids).after (Dynamo.Memory.empty.withTable t)
          [put 9007199254740993, put 9007199254740991], 0, 0, []⟩ :=
      ⟨rfl, by decide, rfl, rfl, by decide, rfl, (Dynamo.serves_new t).after hcalls⟩
    obtain ⟨found, -, htakes, hreturns⟩ := hboth.2 t args none 100 _ hsearch
    -- the rows stand by their key texts, so the documents are in the order of the container
    have hdocuments : ((Dynamo.surroundings clock ids).after (Dynamo.Memory.empty.withTable t)
        [put 9007199254740993, put 9007199254740991]).documents t = shelf.documents :=
      rfl
    rw [hdocuments] at htakes
    obtain ⟨hgreater, hless⟩ := hfound rfl rfl htakes
    exact ⟨found, hgreater, hless, hreturns⟩

/-- Two integers with one nearest binary64 number are equal to a search, and sorting leaves the greater one before the other. -/
theorem integers_with_one_nearest_number :
    let filter := (Condition.compare .equals (.integer 10000000000000000)).on "n" .sensitive
    let d (n : Int64) : Document := [("n", Json.ofInt64 n)]
    (Cosmos.Finds filter Select.all Keyed.empty (d 9999999999999999) ∧
      Dynamo.Finds (Compile.filter Dynamo.dialect filter) ⟨[], []⟩ (d 9999999999999999)) ∧
      Cosmos.sortBy [("n", true)] [d 10000000000000000, d 9999999999999999] = [d 10000000000000000, d 9999999999999999] := by
  intro filter d
  have hvalid : filter.Valid ↔ "n" ≠ "" := Condition.valid_compare_iff.trans (and_iff_left rfl)
  have hb : ∀ v ∈ (⟨[], []⟩ : Bindings (List String)).params, v.isFinite = true := List.forall_mem_nil _
  have hnarrow : Dynamo.Narrow (.compare .equals (.integer 10000000000000000)) := trivial
  refine ⟨⟨(Cosmos.finds_on_iff hvalid).2 (by decide +kernel), (Dynamo.finds_on_iff hb hnarrow hvalid).2 (by decide +kernel)⟩, ?_⟩
  exact List.mergeSort_of_pairwise (List.pairwise_pair.2 (by decide +kernel))

end DocQuery
