import DocQuery.Proofs.Dynamo.Stored
import DocQuery.Proofs.Json.Distinct
import DocQuery.Proofs.Select

/-!
# Keys of items

The key attributes of an item are an item too, with the same key text and the same place in every read. Between the two parts of a
key text stands a control character, which neither part contains, and different values have different texts. So the key text of an
item determines its key attributes (`keyText_eq_iff`), and with them the item's place.
-/

namespace DocQuery.Dynamo.Rows

variable {rows : Rows} {item other : Item} {key : String}

/-! ## The key attributes as an item -/

/-- The key attributes are those of the item. -/
theorem get?_keyOf (rows : Rows) (item : Item) {name : String} (h : name ∈ rows.partitionKey :: rows.sortKey.toList) :
    Fields.get? (rows.keyOf item) name = Fields.get? item name := by
  have hstand : ∀ e ∈ Select.pick (rows.partitionKey :: rows.sortKey.toList) item, Fields.get? item e.1 = some e.2 := by
    intro e he
    obtain ⟨name, -, he⟩ := List.mem_filterMap.1 he
    obtain ⟨j, hj, rfl⟩ := Option.map_eq_some_iff.1 he
    exact hj
  rw [keyOf, Fields.ofList, Fields.get?_putAll_of_get? hstand]
  split
  · rfl
  · next hname =>
    rw [Fields.get?_nil, ← Fields.get?_eq_none_iff.2 hname, Select.get?_pick, if_pos h]

/-- The key attributes have the key text of the item. -/
theorem keyText_keyOf (rows : Rows) (item : Item) : rows.keyText (rows.keyOf item) = rows.keyText item := by
  rw [keyText, keyText, get?_keyOf rows item List.mem_cons_self]
  cases hs : rows.sortKey with
  | none => rfl
  | some sortKey =>
    have hmem : sortKey ∈ rows.partitionKey :: rows.sortKey.toList := by simp [hs]
    simp only [get?_keyOf rows item hmem]

/-- The key attributes have the place of the item. -/
theorem position_keyOf (rows : Rows) (bySortKey : Bool) (item : Item) :
    rows.position bySortKey (rows.keyOf item) = rows.position bySortKey item := by
  unfold position
  rw [keyText_keyOf]
  split
  · next sortKey hs =>
    have hmem : sortKey ∈ rows.partitionKey :: rows.sortKey.toList := by simp [hs]
    rw [get?_keyOf rows item hmem]
  · rfl

/-! ## The key attributes from the key text -/

/-- The values of the key attributes of an item. -/
def address (rows : Rows) (item : Item) : Option Json × Option Json :=
  (item.get? rows.partitionKey, rows.sortKey.bind fun sortKey => item.get? sortKey)

/-- An item with a key text has the key attributes that the text is made of. -/
theorem of_keyText (h : rows.keyText item = .ok key) :
    ∃ partition : Json, item.get? rows.partitionKey = some partition ∧
      ((rows.sortKey = none ∧ key = partition.text) ∨
        ∃ (sortKey : String) (sort : Json), rows.sortKey = some sortKey ∧ item.get? sortKey = some sort ∧
          key = partition.text ++ keySeparator ++ sort.text) := by
  unfold keyText at h
  cases hp : item.get? rows.partitionKey with
  | none => simp [hp, bind, Except.bind] at h
  | some partition =>
    refine ⟨partition, rfl, ?_⟩
    cases hs : rows.sortKey with
    | none =>
      simp only [hp, hs, bind, Except.bind, Except.ok.injEq] at h
      exact .inl ⟨rfl, h.symm⟩
    | some sortKey =>
      cases hv : item.get? sortKey with
      | none => simp [hp, hs, hv, bind, Except.bind] at h
      | some sort =>
        simp only [hp, hs, hv, bind, Except.bind, Except.ok.injEq] at h
        exact .inr ⟨sortKey, sort, rfl, hv, h.symm⟩

/-- The key text is made of the values of the key attributes. -/
theorem keyText_of_address (h : rows.address item = rows.address other) : rows.keyText item = rows.keyText other := by
  obtain ⟨hpartition, hsort⟩ := Prod.mk.inj h
  unfold keyText
  rw [hpartition]
  cases hs : rows.sortKey with
  | none => rfl
  | some sortKey =>
    rw [hs, Option.bind_some, Option.bind_some] at hsort
    simp only [hsort]

/-- So is the place in a read. -/
theorem position_of_address (h : rows.address item = rows.address other) (bySortKey : Bool) :
    rows.position bySortKey item = rows.position bySortKey other := by
  unfold position
  rw [keyText_of_address h]
  split
  · next sortKey hs =>
    have hsort : item.get? sortKey = other.get? sortKey := by
      simpa only [address, hs, Option.bind_some] using congrArg Prod.snd h
    rw [hsort]
  · rfl

/-- A JSON text holds no separator. -/
theorem separator_not_mem (j : Json) : Char.ofNat 0x1F ∉ j.chars := by
  intro h
  exact absurd (Json.not_control_of_mem_chars h) (by decide)

/-- The parts of a key text can be told from it, and they are the texts of two values. -/
theorem parts_eq {a b c d : Json} (h : a.text ++ keySeparator ++ b.text = c.text ++ keySeparator ++ d.text) : a = c ∧ b = d := by
  have hchars := congrArg String.toList h
  simp only [keySeparator, Json.text, String.toList_append, String.toList_ofList, List.append_assoc, List.singleton_append]
    at hchars
  obtain ⟨hac, -, hbd⟩ := (List.append_cons_inj_of_notMem (separator_not_mem a) (separator_not_mem b)).1 hchars
  exact ⟨Json.chars_injective hac, Json.chars_injective hbd⟩

/-- Two items have one key text exactly if the values of their key attributes are the same. -/
theorem keyText_eq_iff (h : rows.keyText item = .ok key) : rows.keyText other = .ok key ↔ rows.address item = rows.address other := by
  constructor
  · intro h'
    obtain ⟨p, hp, ⟨hs, hkey⟩ | ⟨sortKey, v, hs, hv, hkey⟩⟩ := of_keyText h
    · obtain ⟨q, hq, ⟨-, hkey'⟩ | ⟨_, _, hs', -, -⟩⟩ := of_keyText h'
      · have hpq : p = q := Json.text_injective (hkey.symm.trans hkey')
        simp [address, hs, hp, hq, hpq]
      · exact nomatch hs.symm.trans hs'
    · obtain ⟨q, hq, ⟨hs', -⟩ | ⟨sortKey', u, hs', hu, hkey'⟩⟩ := of_keyText h'
      · exact nomatch hs.symm.trans hs'
      · obtain rfl : sortKey = sortKey' := Option.some.inj (hs.symm.trans hs')
        obtain ⟨hpq, hvu⟩ := parts_eq (hkey.symm.trans hkey')
        simp [address, hs, hp, hq, hv, hu, hpq, hvu]
  · intro he
    exact (keyText_of_address he).symm.trans h

end DocQuery.Dynamo.Rows
