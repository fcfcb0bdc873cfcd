import DocQuery.Proofs.Dynamo.Filter
import DocQuery.Proofs.Expression.Queries
import DocQuery.Proofs.Select

/-!
# The texts of writes

A condition on the existence of a record is read back as a test of its key. The assignments of an update are read back as they
were meant, and applying them writes the changes into the item.
-/

namespace DocQuery.Dynamo

open Expression

/-! ## Conditions on existence -/

/-- The function of a condition for a record to be there. -/
theorem ofName?_attributeExists : Function.ofName? "attribute_exists" = some .exists := by
  simp [Function.ofName?, lowerAscii_of_map (s := "attribute_exists") (t := "attribute_exists") (by decide)]

/-- The function of a condition for a record not to be there. -/
theorem ofName?_attributeNotExists : Function.ofName? "attribute_not_exists" = some .notExists := by
  simp [Function.ofName?, lowerAscii_of_map (s := "attribute_not_exists") (t := "attribute_not_exists") (by decide)]

/-- A condition on existence binds nothing, and only adds to the fields with aliases. -/
theorem existence_tables (t : Table) (tables : Tables) (policy : WritePolicy) (function : String) :
    (existence t tables policy function).2.attributes = tables.attributes ∧
      tables.fields <+: (existence t tables policy function).2.fields := by
  cases policy with
  | unchecked => exact ⟨rfl, List.prefix_refl _⟩
  | existenceChecked => exact ⟨rfl, reading.leads_reference tables.fields t.partitionKey⟩

/-- A condition on existence is a test of the key. -/
theorem existence_parse (t : Table) (tables : Tables) {function : String} {f : Function} (hw : IsAsciiWord function.toList)
    (hf : Function.ofName? function = some f) :
    ∃ text, (existence t tables .existenceChecked function).1 = some text ∧
      parseFormula text (existence t tables .existenceChecked function).2.names = .ok (.call f [.path t.partitionKey]) := by
  refine ⟨_, rfl, FormulaText.parse ?_⟩
  have hkey : TermText (namesOf (aliasFor tables.fields t.partitionKey).2)
      (aliasFor tables.fields t.partitionKey).1.toList (.path t.partitionKey) :=
    reading.reference trivial (List.prefix_refl _)
  have hcall := (FormulaText.call hw hf (.last hkey)).formula
  simp only [String.toList_append, List.append_assoc]
  exact hcall

/-- What the condition of a write decides, depending on whether it wants a record to be there. -/
def decision (policy : WritePolicy) (wanted : Bool) (found : Option Document) : Except StoreError Unit :=
  match policy with
  | .unchecked => .ok ()
  | .existenceChecked =>
    if found.isSome == wanted then .ok () else .error (.conditionalCheckFailed "The conditional request failed")

section

variable {t : Table} {values : Fields Json} {existing : Option Item} {found : Option Document}

/-- The condition of a write, where a test of the key decides it. -/
theorem checkCondition_of_call {text : String} {names : Option (Fields String)} {f : Function} {wanted : Bool} {d : Document}
    (hp : parseFormula text names = .ok (.call f [.path t.partitionKey]))
    (hd : (existing.map toDocument).getD (.ok []) = .ok d)
    (hf : Scope.call ⟨d, values⟩ f [.path t.partitionKey] = .ok (existing.isSome == wanted)) :
    Memory.checkCondition (some text) names values existing =
      if existing.isSome == wanted then .ok () else .error (.conditionalCheckFailed "The conditional request failed") := by
  cases existing with
  | none =>
    cases hd
    simp only [Memory.checkCondition, hp, Except.mapError, bind, Except.bind, Dynamo.holds, Scope.eval, hf]
  | some item =>
    have hd : toDocument item = .ok d := hd
    simp only [Memory.checkCondition, hp, hd, Except.mapError, bind, Except.bind, Dynamo.holds, Scope.eval, hf]

/-- What a test of the key reads: the item that is there, which has its key, or no attributes at all. -/
theorem key_read (h : ∀ item, existing = some item → ∃ d, toDocument item = .ok d ∧ Fields.has d t.partitionKey = true) :
    ∃ d : Document, (existing.map toDocument).getD (.ok []) = .ok d ∧ Fields.has d t.partitionKey = existing.isSome := by
  cases existing with
  | none => exact ⟨[], rfl, rfl⟩
  | some item => exact h item rfl

/-- A write with a check that wants an item to be there. -/
theorem checkCondition_wanted
    (h : ∀ item, existing = some item → ∃ d, toDocument item = .ok d ∧ Fields.has d t.partitionKey = true) (tables : Tables) :
    Memory.checkCondition (existence t tables .existenceChecked "attribute_exists").1
        (existence t tables .existenceChecked "attribute_exists").2.names values existing =
      if existing.isSome == true then .ok () else .error (.conditionalCheckFailed "The conditional request failed") := by
  obtain ⟨d, hd, hkey⟩ := key_read h
  obtain ⟨text, htext, hp⟩ := existence_parse t tables (by decide) ofName?_attributeExists
  rw [htext]
  refine checkCondition_of_call hp hd ?_
  rw [Scope.call, hkey, beq_true]

/-- A write with a check that wants no item to be there. -/
theorem checkCondition_unwanted
    (h : ∀ item, existing = some item → ∃ d, toDocument item = .ok d ∧ Fields.has d t.partitionKey = true) (tables : Tables) :
    Memory.checkCondition (existence t tables .existenceChecked "attribute_not_exists").1
        (existence t tables .existenceChecked "attribute_not_exists").2.names values existing =
      if existing.isSome == false then .ok () else .error (.conditionalCheckFailed "The conditional request failed") := by
  obtain ⟨d, hd, hkey⟩ := key_read h
  obtain ⟨text, htext, hp⟩ := existence_parse t tables (by decide) ofName?_attributeNotExists
  rw [htext]
  refine checkCondition_of_call hp hd ?_
  rw [Scope.call, hkey, beq_false]

variable (hn : ∀ d, found = some d → Json.NarrowMembers d) (hk : ∀ d, found = some d → Fields.has d t.partitionKey = true)

include hn hk in
/-- The item of a record that is there has its key. -/
theorem read_found {item : Item} (h : found.map ofDocument = some item) :
    ∃ d, toDocument item = .ok d ∧ Fields.has d t.partitionKey = true := by
  obtain ⟨d, hd, rfl⟩ := Option.map_eq_some_iff.1 h
  exact ⟨d, toDocument_ofDocument (hn d hd), hk d hd⟩

include hn hk in
/-- A write that, with the check, wants the record to be there. -/
theorem checkCondition_exists (tables : Tables) (policy : WritePolicy) :
    Memory.checkCondition (existence t tables policy "attribute_exists").1
        (existence t tables policy "attribute_exists").2.names values (found.map ofDocument) = decision policy true found := by
  cases policy with
  | unchecked => rfl
  | existenceChecked =>
    rw [checkCondition_wanted (fun _ h => read_found hn hk h), Option.isSome_map]
    rfl

include hn hk in
/-- A write that, with the check, wants no record to be there. -/
theorem checkCondition_notExists (tables : Tables) (policy : WritePolicy) :
    Memory.checkCondition (existence t tables policy "attribute_not_exists").1
        (existence t tables policy "attribute_not_exists").2.names values (found.map ofDocument) =
      decision policy false found := by
  cases policy with
  | unchecked => rfl
  | existenceChecked =>
    rw [checkCondition_unwanted (fun _ h => read_found hn hk h), Option.isSome_map]
    rfl

end

/-! ## Assignments -/

/-- The assignments of changes to placeholders from a number on. -/
def assignments (slot : Nat) : Document → List (String × Term)
  | [] => []
  | e :: rest => (e.1, .param (placeholder slot)) :: assignments (slot + 1) rest

/-- The attributes that assignments bind. -/
theorem attributes_assign (tables : Tables) (changes : Document) :
    (assign tables changes).2.attributes = tables.attributes ++ changes.map fun e => ofJson e.2 := by
  induction changes generalizing tables with
  | nil => rw [List.map_nil, List.append_nil]; rfl
  | cons e rest ih =>
    rw [List.map_cons, List.append_cons]
    exact ih _

/-- Assignments only add to the fields with aliases. -/
theorem prefix_assign (tables : Tables) (changes : Document) : tables.fields <+: (assign tables changes).2.fields := by
  induction changes generalizing tables with
  | nil => exact List.prefix_refl _
  | cons e rest ih =>
    exact (reading.leads_reference tables.fields e.1).trans (ih ((tables.refer e.1).2.bind (ofJson e.2)).2)

/-- The relation of an assignment between blanks. -/
theorem spells_assign : Spells " = ".toList [.relation .eq] :=
  Spells.between_blanks "=" '=' [] rfl (by decide) fun _ => rfl

/-- An assignment of a placeholder to a field by its alias. -/
theorem assignment_text {names : Names} {a : String} {field : String} (h : TermText names a.toList (.path field)) (slot : Nat) :
    ∃ ts, SpellsApart (a ++ " = " ++ placeholder slot).toList ts ∧
      AssignmentWritten names ts (field, .param (placeholder slot)) := by
  obtain ⟨us, hus, hpath⟩ := h
  obtain ⟨vs, hvs, hparam⟩ := placeholder_text names slot
  refine ⟨_, ?_, us, vs, rfl, hpath, hparam⟩
  rw [String.toList_append, String.toList_append, List.append_assoc]
  exact hus.append (spells_assign.append_apart hvs) (apart_cons rfl)

/-- Each assignment is read as that from then on. -/
theorem assign_texts {changes : Document} {tables : Tables} {u : List String} (hu : (assign tables changes).2.fields <+: u) :
    List.Forall₂ (fun cs a => ∃ ts, SpellsApart cs ts ∧ AssignmentWritten (namesOf u) ts a)
      ((assign tables changes).1.map String.toList) (assignments tables.attributes.length changes) := by
  induction changes generalizing tables with
  | nil => exact .nil
  | cons e rest ih =>
    have hrest := prefix_assign ((tables.refer e.1).2.bind (ofJson e.2)).2 rest
    have halias : TermText (namesOf u) (aliasFor tables.fields e.1).1.toList (.path e.1) :=
      reading.reference trivial (hrest.trans hu)
    have hmore := @ih ((tables.refer e.1).2.bind (ofJson e.2)).2 hu
    have hlength : ((tables.refer e.1).2.bind (ofJson e.2)).2.attributes.length = tables.attributes.length + 1 := by
      simp [Tables.bind, Tables.refer]
    rw [hlength] at hmore
    exact .cons (assignment_text halias _) hmore

/-- The assignments of changes are parsed as they were meant. -/
theorem parse_assign {changes : Document} {tables : Tables} {u : List String} (hu : (assign tables changes).2.fields <+: u)
    (hne : changes ≠ []) :
    parseAssignments ("SET " ++ String.intercalate ", " (assign tables changes).1) (namesOf u) =
      .ok (assignments tables.attributes.length changes) := by
  have htexts := assign_texts hu
  have hassigned : (assign tables changes).1.map String.toList ≠ [] := by
    intro h
    rw [h] at htexts
    cases changes with
    | nil => exact hne rfl
    | cons e rest => cases htexts
  refine parseAssignments_of_text String.toList_append ?_
  have hseparated := SeparatedText.of_forall₂ htexts hassigned
  simpa using hseparated

/-! ## Values -/

/-- The attributes of tables under their placeholders. -/
theorem values_getD (t : Tables) : t.values.getD [] = Fields.numbered placeholder id t.attributes := by
  rw [Tables.values]
  cases t.attributes <;> rfl

/-- An attribute is found under its placeholder. -/
theorem values_get? {t : Tables} {i : Nat} {a : Json} (h : t.attributes[i]? = some a) :
    t.values.bind (·.get? (placeholder i)) = some a := by
  have hget := Fields.get?_numbered placeholder_injective id h
  rw [← values_getD] at hget
  cases hv : t.values with
  | none => rw [hv] at hget; cases hget
  | some values => rw [hv] at hget; exact hget

/-- The values of changes can be decoded. -/
theorem plainValues_of_changes {t : Tables} {changes : Document} (ht : t.attributes = changes.map fun e => ofJson e.2) :
    ∃ values, Memory.plainValues t.values = .ok values := by
  have hdecoded : ∀ e ∈ t.values.getD [], ∃ j, toJson e.2 = .ok j := by
    rw [values_getD, ht]
    intro e he
    obtain ⟨⟨a, i⟩, ha, rfl⟩ := List.mem_map.1 he
    obtain ⟨c, hc, rfl⟩ := List.mem_map.1 (List.mem_of_getElem? (List.mem_zipIdx_iff_getElem?.1 ha))
    exact ⟨c.2.settled, toJson_ofJson_settled c.2⟩
  refine ⟨decodedMembers (t.values.getD []), ?_⟩
  rw [Memory.plainValues, toMembers_eq_decodedMembers hdecoded]
  rfl

/-! ## Items -/

/-- The field of an item is the attribute of the document's. -/
theorem get?_ofDocument (d : Document) (name : String) : Fields.get? (ofDocument d) name = (Fields.get? d name).map ofJson := by
  induction d with
  | nil => rfl
  | cons e rest ih =>
    obtain ⟨n, j⟩ := e
    rw [ofDocument, ofMembers, Fields.get?_cons, Fields.get?_cons]
    split
    · rfl
    · exact ih

/-- Writing into a document writes the attribute into its item. -/
theorem put_ofDocument (d : Document) (name : String) (j : Json) :
    Fields.put (ofDocument d) name (ofJson j) = ofDocument (Fields.put d name j) := by
  induction d with
  | nil => rfl
  | cons e rest ih =>
    obtain ⟨n, i⟩ := e
    rw [ofDocument, ofMembers, Fields.put, Fields.put]
    split
    · rfl
    · exact congrArg ((n, ofJson i) :: ·) ih

/-- What a document's item has picked out of it is the item of what is picked out of the document. -/
theorem pick_ofDocument (names : List String) (d : Document) :
    Select.pick names (ofDocument d) = ofDocument (Select.pick names d) := by
  induction names with
  | nil => rfl
  | cons name names ih =>
    rw [Select.pick, Select.pick, List.filterMap_cons, List.filterMap_cons, get?_ofDocument]
    cases Fields.get? d name with
    | none => exact ih
    | some j => exact congrArg ((name, ofJson j) :: ·) ih

/-- A projected item is the item of the projected document. -/
theorem projectItem_ofDocument (select : Select) (d : Document) :
    projectItem select.selected? (ofDocument d) = ofDocument (select.project d) := by
  rw [Select.project]
  cases hs : select.selected? with
  | none => rfl
  | some names =>
    rw [projectItem, Select.ofList_pick (Select.nodup_of_selected? hs)]
    exact pick_ofDocument names d

/-- Writing changes into a document writes their attributes into its item. -/
theorem putAll_ofDocument (d changes : Document) :
    Fields.putAll (ofDocument d) (ofDocument changes) = ofDocument (Fields.putAll d changes) := by
  induction changes generalizing d with
  | nil => rfl
  | cons e rest ih =>
    have hrest := ih (Fields.put d e.1 e.2)
    rwa [← put_ofDocument] at hrest

/-- Changes written into an item leave its other attributes alone. -/
theorem get?_putAll_ofDocument {changes : Document} {name : String} (h : name ∉ Fields.names changes) (item : Item) :
    Fields.get? (Fields.putAll item (ofDocument changes)) name = Fields.get? item name := by
  refine Fields.get?_putAll_of_not_mem (Fields.get?_eq_none_iff.1 ?_)
  rw [get?_ofDocument, Fields.get?_eq_none_iff.2 h, Option.map_none]

/-- Applying assignments writes the attributes of the changes. -/
theorem applyAll_assignments {rows : Rows} {values : Option (Fields Json)} {slot : Nat} {changes : Document}
    (hv : ∀ i e, changes[i]? = some e → values.bind (·.get? (placeholder (slot + i))) = some (ofJson e.2))
    (hk : ∀ e ∈ changes, rows.isKey e.1 = false) (item : Item) :
    Memory.applyAll rows values item (assignments slot changes) = .ok (Fields.putAll item (ofDocument changes)) := by
  induction changes generalizing slot item with
  | nil => rfl
  | cons e rest ih =>
    have hassigned : Memory.assigned values (.param (placeholder slot)) = .ok (ofJson e.2) := by
      have he := hv 0 e rfl
      rw [Nat.add_zero] at he
      rw [Memory.assigned, he]
    have hvalues : ∀ i e', rest[i]? = some e' → values.bind (·.get? (placeholder (slot + 1 + i))) = some (ofJson e'.2) := by
      intro i e' he'
      have h := hv (i + 1) e' he'
      rwa [Nat.add_comm i 1, ← Nat.add_assoc] at h
    have hrest := ih hvalues (fun e' he' => hk e' (List.mem_cons_of_mem e he')) (Fields.put item e.1 (ofJson e.2))
    rw [assignments, Memory.applyAll, hk e List.mem_cons_self, hassigned]
    exact hrest

end DocQuery.Dynamo
