import DocQuery.Fields
import Mathlib.Data.List.Nodup

/-!
# Entries with distinct names

Where no name occurs twice, every entry is found under its name, and building the fields from the list of their entries changes
nothing. Writing changes the entries under the names that are written, and no others.
-/

namespace DocQuery.Fields

variable {α : Type}

/-- An entry is found under its name where that occurs only once. -/
theorem get?_of_mem {fields : Fields α} (h : fields.names.Nodup) {name : String} {a : α} (hm : (name, a) ∈ fields) :
    fields.get? name = some a := by
  induction fields with
  | nil => cases hm
  | cons e rest ih =>
    obtain ⟨n, b⟩ := e
    obtain ⟨hn, hrest⟩ := List.nodup_cons.1 h
    rw [get?_cons]
    rcases List.mem_cons.1 hm with heq | hm
    · cases heq
      rw [if_pos rfl]
    · have hname : name ∈ names rest := List.mem_map.2 ⟨_, hm, rfl⟩
      have hne : n ≠ name := fun he => hn (he ▸ hname)
      rw [if_neg hne, ih hrest hm]

/-- What is found under a name is an entry. -/
theorem mem_of_get? {fields : Fields α} {name : String} {a : α} (h : fields.get? name = some a) : (name, a) ∈ fields := by
  induction fields with
  | nil => cases h
  | cons e rest ih =>
    obtain ⟨n, b⟩ := e
    rw [get?_cons] at h
    split at h
    · next hn =>
      cases h
      rw [hn]
      exact List.mem_cons_self
    · exact List.mem_cons_of_mem _ (ih h)

/-- Nothing is found under a name that does not occur. -/
theorem get?_eq_none_iff {fields : Fields α} {name : String} : fields.get? name = none ↔ name ∉ fields.names := by
  induction fields with
  | nil => simp [names]
  | cons e rest ih =>
    obtain ⟨n, b⟩ := e
    rw [get?_cons]
    split
    · next hn => simp [names, hn]
    · next hn => rw [ih]; simp [names, Ne.symm hn]

/-- Where entries are chosen by their names, those under the other names are gone. -/
theorem get?_filter (p : String → Bool) (fields : Fields α) (name : String) :
    get? (fields.filter fun e => p e.1) name = if p name then fields.get? name else none := by
  induction fields with
  | nil => rw [List.filter_nil, get?_nil, ite_self]
  | cons e rest ih =>
    obtain ⟨n, a⟩ := e
    rw [get?_cons, List.filter_cons]
    by_cases hn : n = name
    · subst hn
      rw [if_pos rfl]
      split
      · rw [get?_cons, if_pos rfl]
      · next hp => rw [ih, if_neg hp]
    · rw [if_neg hn]
      split
      · rw [get?_cons, if_neg hn, ih]
      · exact ih

/-- A new name goes to the end. -/
theorem put_of_not_mem {fields : Fields α} {name : String} (h : name ∉ fields.names) (a : α) :
    fields.put name a = fields ++ [(name, a)] := by
  induction fields with
  | nil => rfl
  | cons e rest ih =>
    obtain ⟨n, b⟩ := e
    simp only [names, List.map_cons, List.mem_cons, not_or] at h
    rw [put, if_neg (Ne.symm h.1), ih h.2, List.cons_append]

/-- New names go to the end in their order. -/
theorem putAll_of_nodup {fields : Fields α} {entries : List (String × α)} (h : names (fields ++ entries) |>.Nodup) :
    fields.putAll entries = fields ++ entries := by
  induction entries generalizing fields with
  | nil => rw [List.append_nil]; rfl
  | cons e entries ih =>
    have hfresh : e.1 ∉ fields.names := by
      rw [names, List.map_append] at h
      exact fun hm => (List.nodup_append.1 h).2.2 _ hm e.1 (by simp) rfl
    rw [List.append_cons] at h ⊢
    rw [putAll, List.foldl_cons, put_of_not_mem hfresh]
    exact ih h

/-- A list without repeated names is its own fields. -/
theorem ofList_of_nodup {entries : List (String × α)} (h : (names entries).Nodup) : ofList entries = entries := by
  have hempty : (names ([] ++ entries)).Nodup := h
  exact putAll_of_nodup hempty

/-- Writing what is there changes nothing. -/
theorem put_of_get? {fields : Fields α} {name : String} {a : α} (h : fields.get? name = some a) : fields.put name a = fields := by
  induction fields with
  | nil => cases h
  | cons e rest ih =>
    obtain ⟨n, b⟩ := e
    rw [get?_cons] at h
    rw [put]
    split
    · next hn =>
      rw [if_pos hn] at h
      rw [Option.some.inj h]
    · next hn =>
      rw [if_neg hn] at h
      rw [ih h]

/-- The name that is written under is there afterwards. -/
theorem mem_names_put_self (fields : Fields α) (name : String) (a : α) : name ∈ (fields.put name a).names := by
  rw [names_put]
  split
  · assumption
  · exact List.mem_append_right _ (List.mem_singleton_self name)

/-- The names that are there stay. -/
theorem mem_names_put {fields : Fields α} {other : String} (h : other ∈ fields.names) (name : String) (a : α) :
    other ∈ (fields.put name a).names := by
  rw [names_put]
  split
  · exact h
  · exact List.mem_append_left _ h

/-- Removing an entry leaves the other names. -/
theorem mem_names_drop {fields : Fields α} {name other : String} (h : other ∈ fields.names) (hne : other ≠ name) :
    other ∈ (fields.drop name).names := by
  obtain ⟨e, he, rfl⟩ := List.mem_map.1 h
  exact List.mem_map.2 ⟨e, List.mem_filter.2 ⟨he, bne_iff_ne.2 hne⟩, rfl⟩

/-- What is there after writing was written or was there. -/
theorem mem_put {fields : Fields α} {name : String} {a : α} {e : String × α} (h : e ∈ fields.put name a) :
    e = (name, a) ∨ e ∈ fields := by
  induction fields with
  | nil => exact Or.inl (List.mem_singleton.1 h)
  | cons e' rest ih =>
    obtain ⟨n, b⟩ := e'
    rw [put] at h
    split at h
    · next hn =>
      subst hn
      exact (List.mem_cons.1 h).imp_right (List.mem_cons_of_mem _)
    · rcases List.mem_cons.1 h with rfl | h
      · exact Or.inr List.mem_cons_self
      · exact (ih h).imp_right (List.mem_cons_of_mem _)

/-- What is there after writing several entries is one of them or was there. -/
theorem mem_putAll {fields : Fields α} {entries : List (String × α)} {e : String × α} (h : e ∈ fields.putAll entries) :
    e ∈ entries ∨ e ∈ fields := by
  induction entries generalizing fields with
  | nil => exact Or.inr h
  | cons e' entries ih =>
    rcases ih h with h | h
    · exact Or.inl (List.mem_cons_of_mem _ h)
    · rcases mem_put h with rfl | h
      · exact Or.inl List.mem_cons_self
      · exact Or.inr h

/-- Writing several entries leaves other names alone. -/
theorem get?_putAll_of_not_mem {fields : Fields α} {entries : List (String × α)} {name : String} (h : name ∉ names entries) :
    (fields.putAll entries).get? name = fields.get? name := by
  induction entries generalizing fields with
  | nil => rfl
  | cons e entries ih =>
    rw [names, List.map_cons, List.mem_cons, not_or] at h
    rw [putAll, List.foldl_cons]
    exact (ih h.2).trans (get?_put_of_ne fields e.2 h.1)

/-- What is found after writing several entries is found among them, or was there. -/
theorem get?_putAll (fields : Fields α) (entries : List (String × α)) (name : String) :
    (fields.putAll entries).get? name = ((ofList entries).get? name).or (fields.get? name) := by
  induction entries generalizing fields with
  | nil => rfl
  | cons e entries ih =>
    have hput : (fields.put e.1 e.2).get? name = (Fields.get? (put [] e.1 e.2) name).or (fields.get? name) := by
      by_cases hname : name = e.1
      · rw [hname, get?_put_self, get?_put_self, Option.some_or]
      · rw [get?_put_of_ne _ _ hname, get?_put_of_ne _ _ hname]
        rfl
    have hrest : (ofList (e :: entries)).get? name = ((ofList entries).get? name).or (Fields.get? (put [] e.1 e.2) name) :=
      ih (put [] e.1 e.2)
    rw [hrest, Option.or_assoc, ← hput]
    exact ih (fields.put e.1 e.2)

/-- Lists of entries, no two of which share a name, may be written in any order. -/
theorem get?_foldl_putAll {entries others : List (List (String × α))} (h : entries.Perm others)
    (hdisjoint : ∀ es ∈ entries, ∀ fs ∈ entries, es = fs ∨ List.Disjoint (names es) (names fs)) (fields : Fields α) (name : String) :
    (entries.foldl putAll fields).get? name = (others.foldl putAll fields).get? name := by
  have hfold : ∀ (all : List (List (String × α))) (fields : Fields α), (all.foldl putAll fields).get? name =
      all.foldl (fun found es => ((ofList es).get? name).or found) (fields.get? name) := by
    intro all
    induction all with
    | nil => exact fun fields => rfl
    | cons es all ih =>
      intro fields
      rw [List.foldl_cons, List.foldl_cons, ← get?_putAll]
      exact ih (fields.putAll es)
  have hnone : ∀ es : List (String × α), name ∉ names es → (ofList es).get? name = none := fun es hes => get?_putAll_of_not_mem hes
  rw [hfold, hfold]
  refine h.foldl_eq' (fun es hes fs hfs found => ?_) _
  rcases hdisjoint es hes fs hfs with rfl | hdisjoint
  · rfl
  · by_cases hmem : name ∈ names es
    · rw [hnone fs (hdisjoint hmem), Option.none_or, Option.none_or]
    · rw [hnone es hmem, Option.none_or, Option.none_or]

/-- Where the entries are those found under their names in other fields, what is found after writing them is found there, too. -/
theorem get?_putAll_of_get? {fields entries others : Fields α} (h : ∀ e ∈ entries, others.get? e.1 = some e.2) (name : String) :
    (fields.putAll entries).get? name = if name ∈ names entries then others.get? name else fields.get? name := by
  induction entries generalizing fields with
  | nil => rfl
  | cons e entries ih =>
    obtain ⟨he, hrest⟩ := List.forall_mem_cons.1 h
    have hnames : names (e :: entries) = e.1 :: names entries := rfl
    rw [putAll, List.foldl_cons, hnames]
    refine (ih hrest).trans ?_
    by_cases hname : name ∈ names entries
    · rw [if_pos hname, if_pos (List.mem_cons_of_mem _ hname)]
    · rw [if_neg hname]
      by_cases hself : name = e.1
      · rw [hself, if_pos List.mem_cons_self, he, get?_put_self]
      · rw [get?_put_of_ne fields e.2 hself, if_neg (List.not_mem_cons_of_ne_of_not_mem hself hname)]

/-- Entries under numbered names, each with what becomes of the item with that number. -/
def numbered {β : Type} (name : Nat → String) (f : β → α) (items : List β) : Fields α :=
  items.zipIdx.map fun (b, i) => (name i, f b)

/-- The names of numbered entries are the first numbered names. -/
theorem names_numbered {β : Type} (name : Nat → String) (f : β → α) (items : List β) :
    names (numbered name f items) = (List.range' 0 items.length).map name := by
  have hnames : names (numbered name f items) = (items.zipIdx.map (·.2)).map name := by
    rw [names, numbered, List.map_map, List.map_map]
    rfl
  rw [hnames, List.zipIdx_map_snd]

/-- Numbered names are distinct where different numbers have different names. -/
theorem nodup_names_numbered {β : Type} {name : Nat → String} (h : Function.Injective name) (f : β → α) (items : List β) :
    (names (numbered name f items)).Nodup := by
  rw [names_numbered]
  exact (List.nodup_range' 1).map h

/-- An item is found under its number. -/
theorem get?_numbered {β : Type} {name : Nat → String} (h : Function.Injective name) (f : β → α) {items : List β} {i : Nat}
    {b : β} (hi : items[i]? = some b) : (numbered name f items).get? (name i) = some (f b) :=
  get?_of_mem (nodup_names_numbered h f items) (List.mem_map.2 ⟨(b, i), List.mem_zipIdx_iff_getElem?.2 hi, rfl⟩)

end DocQuery.Fields
