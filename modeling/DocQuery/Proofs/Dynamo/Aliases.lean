import DocQuery.Dynamo.Dialect
import DocQuery.Proofs.Compile.Rendering
import DocQuery.Proofs.Decimal.Digits
import DocQuery.Proofs.Fields

/-!
# Aliases and placeholders

An alias stands for its field from the moment on at which it is given out, however many more are given out later. So the dialect
has a reading, with the tables of a request for its names.
-/

namespace DocQuery.Dynamo

open Expression

theorem aliasName_toList (n : Nat) : (aliasName n).toList = '#' :: 'n' :: Decimal.naturalText n := by
  simp [aliasName]

theorem placeholder_toList (n : Nat) : (placeholder n).toList = ':' :: 'v' :: Decimal.naturalText n := by
  simp [placeholder]

/-- Different numbers have different aliases. -/
theorem aliasName_injective : Function.Injective aliasName := Decimal.numbered_injective "#n"

/-- Different slots have different placeholders. -/
theorem placeholder_injective : Function.Injective placeholder := Decimal.numbered_injective ":v"

/-- A letter and digits are parts of a name. -/
theorem isNamePart_of_numbered {c : Char} (hc : isNamePart c = true) (n : Nat) :
    ∀ d ∈ c :: Decimal.naturalText n, isNamePart d = true := by
  intro d hd
  rcases List.mem_cons.1 hd with rfl | hd
  · exact hc
  · exact isNamePart_of_ascii (by rw [Decimal.isAsciiDigit_of_mem_naturalText hd, Bool.or_true, Bool.true_or])

/-- A placeholder is a term. -/
theorem placeholder_text (names : Names) (n : Nat) : TermText names (placeholder n).toList (.param (placeholder n)) := by
  have h : TermText names (':' :: 'v' :: Decimal.naturalText n) _ :=
    .placeholder (Or.inl rfl) (isNamePart_of_numbered rfl n) (List.cons_ne_nil _ _)
  rw [← placeholder_toList, String.ofList_toList] at h
  exact h

/-- An alias is the field that the names give it. -/
theorem aliasName_text {names : Names} {n : Nat} {field : String} (h : names.bind (·.get? (aliasName n)) = some field) :
    TermText names (aliasName n).toList (.path field) := by
  rw [← String.ofList_toList (s := aliasName n), aliasName_toList] at h
  rw [aliasName_toList]
  exact TermText.named (isNamePart_of_numbered (c := 'n') rfl n) (List.cons_ne_nil _ _) h

/-- The names that go with fields in the order of their aliases. -/
def namesOf (fields : List String) : Names := (Tables.mk fields []).names

/-- A field is found under its alias. -/
theorem namesOf_get? {fields : List String} {i : Nat} {field : String} (h : fields[i]? = some field) :
    (namesOf fields).bind (·.get? (aliasName i)) = some field := by
  have hne : fields ≠ [] := by
    rintro rfl
    cases h
  have hnames : namesOf fields = some (Fields.numbered aliasName id fields) := by
    rw [namesOf, Tables.names, if_neg (by simpa using hne)]
    rfl
  rw [hnames, Option.bind_some, Fields.get?_numbered aliasName_injective id h, id]

/-- The alias of a field is that of one of its places. -/
theorem aliasFor_spec (fields : List String) (field : String) :
    ∃ i, (aliasFor fields field).1 = aliasName i ∧ (aliasFor fields field).2[i]? = some field ∧
      fields <+: (aliasFor fields field).2 := by
  rw [aliasFor]
  cases h : fields.findIdx? (· == field) with
  | some i =>
    obtain ⟨hlt, hi, -⟩ := List.findIdx?_eq_some_iff_getElem.1 h
    exact ⟨i, rfl, by rw [List.getElem?_eq_getElem hlt, beq_iff_eq.1 hi], List.prefix_refl _⟩
  | none => exact ⟨fields.length, rfl, by simp, List.prefix_append _ _⟩

/-- A place in a list is the same place in a longer one. -/
theorem getElem?_of_isPrefix {α : Type} {xs ys : List α} (h : xs <+: ys) {i : Nat} {a : α} (hi : xs[i]? = some a) :
    ys[i]? = some a := by
  obtain ⟨zs, rfl⟩ := h
  rw [List.getElem?_append_left (List.getElem?_eq_some_iff.1 hi).1, hi]

/-- References draw on the list of fields with aliases, which only grows; every field fits. -/
def reading : dialect.Reading where
  folding := .casings
  names := namesOf
  Leads := (· <+: ·)
  Fits := fun _ => True
  leads_refl := fun _ => List.prefix_refl _
  leads_trans := List.IsPrefix.trans
  leads_reference := fun fields field => (aliasFor_spec fields field).choose_spec.2.2
  reference := by
    intro fields u field _ hu
    obtain ⟨i, halias, hi, -⟩ := aliasFor_spec fields field
    have hget := namesOf_get? (getElem?_of_isPrefix hu hi)
    show TermText _ (aliasFor fields field).1.toList _
    rw [halias]
    exact aliasName_text hget
  placeholder := placeholder_text
  contains := ⟨by decide, ofName?_contains (by decide)⟩
  startsWith := ⟨by decide, ofName?_beginsWith (by decide)⟩
  notEqual := Spells.between_blanks "<>" '<' ['>'] rfl (by decide) fun _ => rfl
  lower? := fun _ => rfl

end DocQuery.Dynamo
