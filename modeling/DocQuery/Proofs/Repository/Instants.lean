import DocQuery.Proofs.Repository.Searches
import DocQuery.Proofs.Time.Order

/-!
# Instants in searches

Stores know instants as their texts only, and compare and sort these as texts. Texts of instants sort like the instants, so a
search compares instants by their milliseconds, and sorts records by them: `timestamps_sort_like_time`.
-/

namespace DocQuery

/-- The texts of two instants compare as their milliseconds. -/
theorem Json.compare?_text {t u : Instant} (ht : t.Regular) (hu : u.Regular) :
    (Json.str t.text).compare? (.str u.text) = some (compare t.millis u.millis) :=
  congrArg some (ht.compare_text hu)

/-- How a search takes the instants of records: a comparison as the order of their milliseconds has it, and the order of the
records as that of the milliseconds. -/
structure TakesInstants (seen : String → String) (folding : Folding) (w : Where) (key? : Option (String × Bool))
    (records found : List Document) : Prop where
  compared : ∀ d ∈ records, ∀ e ∈ w.entries, ∀ op (t u : Instant), .compare op (.instant u) ∈ e.2.conditions →
    w.PassesBut seen folding e (.compare op (.instant u)) d → Fields.get? d (seen e.1) = some (.str t.text) →
    t.Regular → u.Regular → (d ∈ found ↔ op.Relates t.millis u.millis)
  sorted : ∀ key ∈ key?, found.Pairwise fun x y => ∀ t u : Instant, Fields.get? x key.1 = some (.str t.text) →
    Fields.get? y key.1 = some (.str u.text) → t.Regular → u.Regular →
    if key.2 then t.millis ≤ u.millis else u.millis ≤ t.millis

/-- What a search finds takes instants so. -/
theorem Found.takesInstants {seen : String → String} {folding : Folding} {w : Where} {key? : Option (String × Bool)}
    {records found : List Document} (h : Found (fun d => decide (w.PassesUnder seen folding d)) key? records found) :
    TakesInstants seen folding w key? records found where
  compared _ hd _ he _ _ _ hc hbut hstored ht hu := h.mem_iff_relates hd he hc hbut hstored (Json.compare?_text ht hu)
  sorted key hkey :=
    (h.sorted key hkey).pairwise.imp fun hle _ _ hx hy ht hu => hle _ _ _ _ hx hy (Json.compare?_text ht hu)

/-- Texts of instants in the years 0 to 9999, leap seconds included, sort like time: the bytes of the text of a later instant do
not come first, and come last if it is in a later millisecond. So searches compare instants by their milliseconds. A record that
meets all other conditions and has an instant in a field is found by a comparison with an instant exactly if the order of
milliseconds has it so; and of two records with instants in the field that the search is sorted by, the one with the later
millisecond does not come before the other. -/
theorem timestamps_sort_like_time (name : String) (autoFields : AutoFields) (policy : WritePolicy) (query : QuerySettings)
    (clock : Nat → Instant) (ids : Nat → String) :
    (∀ t u : Instant, t.Regular → u.Regular → t ≤ u → t.text.toUTF8.toList ≤ u.text.toUTF8.toList ∧
      (t.millis ≠ u.millis → t.text.toUTF8.toList < u.text.toUTF8.toList)) ∧
    EverySearchFinds name autoFields policy query clock ids TakesInstants := by
  refine ⟨fun t u ht hu hle => ?_, everySearchFinds name autoFields policy query clock ids Found.takesInstants⟩
  rcases (Instant.millis_mono hle).lt_or_eq with hlt | heq
  · have hbytes := ht.bytes_lt hu hlt
    exact ⟨List.le_of_lt hbytes, fun _ => hbytes⟩
  · rw [Instant.text_eq heq]
    exact ⟨List.le_refl _, fun hne => absurd heq hne⟩

/-- The leap second at the end of 2016 comes before the new year, and a search for what was created before the new year finds what
was created in the leap second. -/
theorem timestamps_sort_like_time_at_leap_second :
    let leap : Instant := ⟨1483228799, 1500000000⟩
    let newYear : Instant := ⟨1483228800, 0⟩
    let order (id : String) (t : Instant) : Document := [("id", .str id), ("createdAt", .str t.text)]
    let filter := (Condition.compare .lt (.instant newYear)).on "createdAt" .sensitive
    let args : FindArgs := ⟨filter, none, none, Select.all, Keyed.empty⟩
    let clock (n : Nat) : Instant := ⟨n, 0⟩
    let ids (n : Nat) := String.ofList (Decimal.naturalText n)
    let c : Cosmos.Container := ⟨"app", "orders", "id"⟩
    let shelf : Cosmos.Shelf := ⟨"id", [order "o-1" newYear, order "o-2" leap]⟩
    leap.text.toUTF8.toList < newYear.text.toUTF8.toList ∧
    ∃ found : List Document, order "o-2" leap ∈ found ∧ order "o-1" newYear ∉ found ∧
      (Repository.ofDocuments (.make "Order" .default .existenceChecked .default) (Cosmos.adapter c)).Returns
        (Cosmos.surroundings clock ids) args ⟨⟨[(("app", "orders"), shelf)], none⟩, 0, 0, []⟩
        (found.map fun d => args.select.project (Cosmos.strip d)) := by
  intro leap newYear order filter args clock ids c shelf
  have hboth := timestamps_sort_like_time "Order" .default .existenceChecked .default clock ids
  have hleap : leap.Regular := ⟨by decide, by decide, by decide⟩
  have hnewYear : newYear.Regular := ⟨by decide, by decide, by decide⟩
  have hsearch : Cosmos.Searchable (.ofDocuments (.make "Order" .default .existenceChecked .default) (Cosmos.adapter c)) c shelf
      args 100 ⟨⟨[(("app", "orders"), shelf)], none⟩, 0, 0, []⟩ := ⟨rfl, rfl, by decide, rfl, ⟨rfl, rfl⟩, by decide⟩
  obtain ⟨found, -, htakes, hreturns⟩ := hboth.2.1 c args 100 shelf _ hsearch
  have hseen : Cosmos.seenName "createdAt" = "createdAt" := by decide
  have hbefore : ∀ id (t : Instant), order id t ∈ shelf.documents → t.Regular →
      (order id t ∈ found ↔ t.millis < newYear.millis) := by
    intro id t hd ht
    have hstored : Fields.get? (order id t) (Cosmos.seenName "createdAt") = some (.str t.text) := by
      rw [hseen]
      rfl
    -- the filter has no other condition
    have hbut : filter.PassesBut Cosmos.seenName .small ("createdAt", ⟨[.compare .lt (.instant newYear)], .sensitive⟩)
        (.compare .lt (.instant newYear)) (order id t) := by
      intro e he c hc hne
      obtain rfl := List.mem_singleton.1 he
      obtain rfl := List.mem_singleton.1 hc
      exact absurd rfl hne
    exact htakes.compared _ hd _ (.head _) .lt t newYear (.head _) hbut hstored ht hnewYear
  refine ⟨(hboth.1 leap newYear hleap hnewYear (by decide)).2 (by decide), found, ?_, ?_, hreturns⟩
  · exact (hbefore _ _ (.tail _ (.head _)) hleap).2 (by decide)
  · exact fun hfound => absurd ((hbefore _ _ (.head _) hnewYear).1 hfound) (by decide)

end DocQuery
