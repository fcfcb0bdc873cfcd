/-!
# Named entries in insertion order

Documents, filters, projections and sort keys are all lists of named entries whose order counts. Writing under a name that is
there already replaces the entry in place; a new name goes to the end.
-/

namespace DocQuery

/-- Entries by name, in insertion order. -/
abbrev Fields (α : Type) := List (String × α)

namespace Fields

variable {α : Type}

/-- The entry under a name. -/
def get? (fields : Fields α) (name : String) : Option α :=
  match fields with
  | [] => none
  | (n, a) :: rest => if n = name then some a else get? rest name

/-- Whether there is an entry under the name. -/
def has (fields : Fields α) (name : String) : Bool := (fields.get? name).isSome

/-- Writes an entry: in place where the name is known, at the end otherwise. -/
def put (fields : Fields α) (name : String) (a : α) : Fields α :=
  match fields with
  | [] => [(name, a)]
  | (n, b) :: rest => if n = name then (n, a) :: rest else (n, b) :: put rest name a

/-- Removes the entry under a name; the others keep their order. -/
def drop (fields : Fields α) (name : String) : Fields α := fields.filter fun e => e.1 != name

/-- Writes several entries one after the other. -/
def putAll (fields : Fields α) (entries : List (String × α)) : Fields α :=
  entries.foldl (fun fs e => fs.put e.1 e.2) fields

/-- The entries of a list, where of two under one name the later one counts, in the place of the first. -/
def ofList (entries : List (String × α)) : Fields α := putAll [] entries

/-- The names, in order. -/
def names (fields : Fields α) : List String := fields.map (·.1)

@[simp] theorem get?_nil (name : String) : get? ([] : Fields α) name = none := rfl

theorem get?_cons (n : String) (a : α) (rest : Fields α) (name : String) :
    get? ((n, a) :: rest) name = if n = name then some a else get? rest name := rfl

/-- What was written under a name is read there. -/
@[simp] theorem get?_put_self (fields : Fields α) (name : String) (a : α) :
    (fields.put name a).get? name = some a := by
  induction fields with
  | nil => simp [put, get?]
  | cons e rest ih =>
    obtain ⟨n, b⟩ := e
    by_cases h : n = name <;> simp [put, get?, h, ih]

/-- Writing under one name leaves the others alone. -/
theorem get?_put_of_ne (fields : Fields α) {name other : String} (a : α) (h : other ≠ name) :
    (fields.put name a).get? other = fields.get? other := by
  induction fields with
  | nil => simp [put, get?, Ne.symm h]
  | cons e rest ih =>
    obtain ⟨n, b⟩ := e
    by_cases hn : n = name
    · subst hn; simp [put, get?, Ne.symm h]
    · simp [put, get?, hn, ih]

/-- Writing under a name adds the name unless it is there. -/
theorem names_put (fields : Fields α) (name : String) (a : α) :
    (fields.put name a).names = if name ∈ fields.names then fields.names else fields.names ++ [name] := by
  induction fields with
  | nil => simp [put, names]
  | cons e rest ih =>
    obtain ⟨n, b⟩ := e
    by_cases h : n = name
    · simp [put, names, h]
    · simp only [put, if_neg h, names, List.map_cons, List.mem_cons, Ne.symm h, false_or] at ih ⊢
      rw [ih]
      split <;> simp [*]

/-- Writing keeps names distinct. -/
theorem nodup_names_put {fields : Fields α} (h : fields.names.Nodup) (name : String) (a : α) :
    (fields.put name a).names.Nodup := by
  rw [names_put]
  split
  · exact h
  · next hn => exact List.nodup_append.2 ⟨h, by simp, by simpa using fun b hb => ne_of_mem_of_not_mem hb hn⟩

/-- Removing keeps names distinct. -/
theorem nodup_names_drop {fields : Fields α} (h : fields.names.Nodup) (name : String) :
    (fields.drop name).names.Nodup :=
  h.sublist (List.Sublist.map _ List.filter_sublist)

end Fields

/-- Entries by name, in insertion order, no name twice. -/
structure Keyed (α : Type) where
  /-- The entries. -/
  entries : Fields α
  /-- No name occurs twice. -/
  distinct : entries.names.Nodup
  deriving DecidableEq, Repr

namespace Keyed

variable {α : Type}

/-- No entries. -/
def empty : Keyed α := ⟨[], List.nodup_nil⟩

instance : Inhabited (Keyed α) := ⟨empty⟩

/-- The entry under a name. -/
def get? (k : Keyed α) (name : String) : Option α := k.entries.get? name

/-- Writes an entry: in place where the name is known, at the end otherwise. -/
def put (k : Keyed α) (name : String) (a : α) : Keyed α :=
  ⟨k.entries.put name a, Fields.nodup_names_put k.distinct name a⟩

/-- Removes the entry under a name; the others keep their order. -/
def drop (k : Keyed α) (name : String) : Keyed α :=
  ⟨k.entries.drop name, Fields.nodup_names_drop k.distinct name⟩

/-- The entries of a list, where of two under one name the later one counts, in the place of the first. -/
def ofList (entries : List (String × α)) : Keyed α := entries.foldl (fun k e => k.put e.1 e.2) empty

/-- Whether there are no entries. -/
def isEmpty (k : Keyed α) : Bool := k.entries.isEmpty

end Keyed

end DocQuery
