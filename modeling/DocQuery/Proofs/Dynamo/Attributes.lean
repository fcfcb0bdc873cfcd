import DocQuery.Dynamo.Attribute
import DocQuery.Proofs.Compile.Formula
import DocQuery.Proofs.Decimal.ReadBack

/-!
# Typed attributes are read back

A document is read back from its item with every field in its place. Integers beyond the signed 64-bit ones are the one thing
that does not stand: such an integer is read as the binary64 number nearest to it. So what is read back is the document itself
exactly where it holds no such integer (`document_read_back`). An operand that is written as an attribute may come back as a number
of the other kind too, but as one that compares alike.
-/

namespace DocQuery

mutual

/-- A value without integers beyond the signed 64-bit ones. -/
def Json.Narrow : Json → Prop
  | .num (.int i) => i.val < 0x8000000000000000
  | .arr items => NarrowItems items
  | .obj members => NarrowMembers members
  | _ => True

/-- Values without integers beyond the signed 64-bit ones. -/
def Json.NarrowItems : List Json → Prop
  | [] => True
  | j :: rest => j.Narrow ∧ NarrowItems rest

/-- Members without integers beyond the signed 64-bit ones. -/
def Json.NarrowMembers : List (String × Json) → Prop
  | [] => True
  | (_, j) :: rest => j.Narrow ∧ NarrowMembers rest

end

/-- What a number is read back as: an integer beyond the signed 64-bit ones as the binary64 number nearest to it. -/
def Number.settled : Number → Number
  | .int i => if i.val < 0x8000000000000000 then .int i else .float (.ofNat i.val.toNat)
  | .float x => .float x

mutual

/-- What a value is read back as. -/
def Json.settled : Json → Json
  | .null => .null
  | .bool b => .bool b
  | .num n => .num n.settled
  | .str s => .str s
  | .arr items => .arr (settledItems items)
  | .obj members => .obj (settledMembers members)

/-- What values are read back as. -/
def Json.settledItems : List Json → List Json
  | [] => []
  | j :: rest => j.settled :: settledItems rest

/-- What members are read back as: each under its name, in their order. -/
def Json.settledMembers : List (String × Json) → List (String × Json)
  | [] => []
  | (name, j) :: rest => (name, j.settled) :: settledMembers rest

end

/-- Settling leaves exactly the integers of 64 bits with a sign alone. -/
theorem Number.settled_eq_iff {n : Number} : n.settled = n ↔ (Json.num n).Narrow := by
  cases n with
  | int i =>
    rw [Number.settled, Json.Narrow]
    split <;> simp [*]
  | float x => simp [Number.settled, Json.Narrow]

mutual

/-- A value is settled exactly where it has no integer beyond the signed ones. -/
theorem Json.settled_eq_iff : ∀ {j : Json}, j.settled = j ↔ j.Narrow
  | .null => by simp [Json.settled, Json.Narrow]
  | .bool _ => by simp [Json.settled, Json.Narrow]
  | .str _ => by simp [Json.settled, Json.Narrow]
  | .num n => by rw [Json.settled, Json.num.injEq, Number.settled_eq_iff]
  | .arr items => by rw [Json.settled, Json.arr.injEq, Json.settledItems_eq_iff, Json.Narrow]
  | .obj members => by rw [Json.settled, Json.obj.injEq, Json.settledMembers_eq_iff, Json.Narrow]

/-- Values are settled exactly where none has an integer beyond the signed ones. -/
theorem Json.settledItems_eq_iff : ∀ {items : List Json}, Json.settledItems items = items ↔ Json.NarrowItems items
  | [] => by simp [Json.settledItems, Json.NarrowItems]
  | j :: rest => by
    rw [Json.settledItems, List.cons.injEq, Json.settled_eq_iff, Json.settledItems_eq_iff, Json.NarrowItems]

/-- Members are settled exactly where none has an integer beyond the signed ones. -/
theorem Json.settledMembers_eq_iff :
    ∀ {members : List (String × Json)}, Json.settledMembers members = members ↔ Json.NarrowMembers members
  | [] => by simp [Json.settledMembers, Json.NarrowMembers]
  | (name, j) :: rest => by
    rw [Json.settledMembers, List.cons.injEq, Prod.mk.injEq, Json.settled_eq_iff, Json.settledMembers_eq_iff,
      Json.NarrowMembers, eq_self, true_and]

end

namespace Dynamo

open Decimal

/-! ## Numbers -/

/-- An integer in range is found again. -/
theorem ofInt?_val (i : WideInt) : WideInt.ofInt? i.val = some i := by
  rw [WideInt.ofInt?, dif_pos i.property]

/-- The numeral of a signed 64-bit integer is read as that integer. -/
theorem number?_integerText (i : WideInt) (h : i.val < 0x8000000000000000) :
    number? (String.ofList (integerText i.val)) = some (.int i) := by
  rw [number?, String.toList_ofList, integer?_integerText]
  simp [h, ofInt?_val]

/-- The numeral of a binary64 number in a document is read as that number. -/
theorem number?_write_document (x : Binary64) : number? (String.ofList (Style.document.write x)) = some (.float x) := by
  rw [number?, String.toList_ofList, integer?_write_document, decimal?_write]
  rfl

/-- The numeral of an integer beyond the signed 64-bit ones is read as the binary64 number nearest to it. -/
theorem number?_wide {i : WideInt} (h : ¬ i.val < 0x8000000000000000) :
    number? (String.ofList (integerText i.val)) = some (.float (.ofNat i.val.toNat)) := by
  have htext : integerText i.val = naturalText i.val.toNat := by
    rw [integerText, if_neg (by omega), ← Int.toNat_natCast i.val.natAbs, Int.natAbs_of_nonneg (by omega)]
  have hrange : (i.val.toNat : ℚ) < 2 ^ (1023 : ℤ) := by
    have hlt : i.val.toNat < 2 ^ 64 := by have := i.property.2; omega
    calc (i.val.toNat : ℚ) < 2 ^ (64 : ℤ) := by exact_mod_cast hlt
      _ ≤ 2 ^ (1023 : ℤ) := zpow_le_zpow_right₀ (by norm_num) (by norm_num)
  rw [number?, String.toList_ofList, integer?_integerText, htext, decimal?_naturalText hrange]
  simp [h]

/-- The numeral of a number of a document is read as that number settled. -/
theorem number?_text (n : Number) : number? n.text = some n.settled := by
  cases n with
  | int i =>
    rw [Number.settled]
    split
    · next h => exact number?_integerText i h
    · next h => exact number?_wide h
  | float x => exact number?_write_document x

/-- The numeral of a binary64 operand is read as a number at the same place. -/
theorem number?_write_attribute (x : Binary64) :
    ∃ n, number? (String.ofList (Style.attribute.write x)) = some n ∧ n.position = x.position := by
  rw [number?, String.toList_ofList]
  cases hi : integer? (Style.attribute.write x) with
  | none => exact ⟨.float x, by simp [decimal?_write], rfl⟩
  | some i =>
    by_cases hlt : i < 0x8000000000000000
    · cases hw : WideInt.ofInt? i with
      | none => exact ⟨.float x, by simp [hlt, hw, decimal?_write], rfl⟩
      | some w =>
        have hval : w.val = i := by
          rw [WideInt.ofInt?] at hw
          split at hw
          · cases hw; rfl
          · cases hw
        refine ⟨.int w, by simp [hlt, hw], ?_⟩
        rw [Number.position, hval]
        exact integerPosition_of_integer? hi (decimal?_write _ x)
    · exact ⟨.float x, by simp [hlt, decimal?_write], rfl⟩

/-- A numeral under its tag is read as its number. -/
theorem toJson_numeral {s : String} {n : Number} (h : number? s = some n) : toJson (tagged "N" (.str s)) = .ok (.num n) := by
  have hread : toJson (tagged "N" (.str s)) = readNumber s := by
    rw [tagged, toJson] <;> first | rfl | simp
  rw [hread, readNumber, h]

/-! ## Documents -/

mutual

/-- The typed attribute of a value is read as that value settled. -/
theorem toJson_ofJson_settled : ∀ j : Json, toJson (ofJson j) = .ok j.settled
  | .null => rfl
  | .bool _ => rfl
  | .str _ => rfl
  | .num n => by
    rw [ofJson]
    exact toJson_numeral (number?_text n)
  | .arr items => by
    rw [ofJson, tagged, toJson]
    simp [toItems_ofItems items, Except.map, Json.settled]
  | .obj members => by
    rw [ofJson, tagged, toJson]
    simp [toMembers_ofMembers members, Except.map, Json.settled]

/-- The typed attributes of values are read as those values settled. -/
theorem toItems_ofItems : ∀ items : List Json, toItems (ofItems items) = .ok (Json.settledItems items)
  | [] => rfl
  | j :: rest => by
    rw [ofItems, toItems, toJson_ofJson_settled j, toItems_ofItems rest]
    rfl

/-- The typed attributes of members are read as those members settled. -/
theorem toMembers_ofMembers :
    ∀ members : List (String × Json), toMembers (ofMembers members) = .ok (Json.settledMembers members)
  | [] => rfl
  | (name, j) :: rest => by
    rw [ofMembers, toMembers, toJson_ofJson_settled j, toMembers_ofMembers rest]
    rfl

end

/-- The item of a document without integers beyond the signed ones is read as that document. -/
theorem toDocument_ofDocument {d : Document} (h : Json.NarrowMembers d) : toDocument (ofDocument d) = .ok d := by
  rw [toDocument, ofDocument, toMembers_ofMembers, Json.settledMembers_eq_iff.2 h]

/-- Every document is read back from its item, each field under its name and in its place, with the integers beyond the signed
64-bit ones as the binary64 numbers nearest to them; it is the same document exactly where it has no such integer. -/
theorem document_read_back (d : Document) :
    toDocument (ofDocument d) = .ok (Json.settledMembers d) ∧
      (toDocument (ofDocument d) = .ok d ↔ Json.NarrowMembers d) := by
  have hread : toDocument (ofDocument d) = .ok (Json.settledMembers d) := toMembers_ofMembers d
  refine ⟨hread, ?_⟩
  rw [hread, Except.ok.injEq, Json.settledMembers_eq_iff]

/-- The greatest unsigned 64-bit integer comes back as two to the power 64, a binary64 number. -/
theorem greatest_integer_not_read_back :
    toDocument (ofDocument [("id", .str "a"), ("n", .num (.int ⟨0xFFFFFFFFFFFFFFFF, by decide⟩))]) =
        .ok [("id", .str "a"), ("n", .num (.float (.ofNat 0x10000000000000000)))] ∧
      toDocument (ofDocument [("id", .str "a"), ("n", .num (.int ⟨0xFFFFFFFFFFFFFFFF, by decide⟩))]) ≠
        .ok [("id", .str "a"), ("n", .num (.int ⟨0xFFFFFFFFFFFFFFFF, by decide⟩))] := by
  have hnearest : Binary64.ofNat 0xFFFFFFFFFFFFFFFF = .ofNat 0x10000000000000000 := by decide
  have hread : toDocument (ofDocument [("id", .str "a"), ("n", .num (.int ⟨0xFFFFFFFFFFFFFFFF, by decide⟩))]) =
      .ok [("id", .str "a"), ("n", .num (.float (.ofNat 0x10000000000000000)))] := by
    rw [← hnearest]
    exact toMembers_ofMembers _
  refine ⟨hread, ?_⟩
  rw [hread]
  simp

/-! ## Operands -/

/-- Two numbers at one place compare alike with everything. -/
theorem compare?_num_congr {m n : Number} (h : m.position = n.position) (stored : Json) :
    stored.compare? (.num m) = stored.compare? (.num n) := by
  cases stored <;> simp [Json.compare?, Json.same, h]

/-- The attribute of a finite operand is read as a value that denotes it. -/
theorem toJson_ofOperand {v : Operand} (h : v.isFinite = true) : ∃ j, toJson (ofOperand v) = .ok j ∧ v.Denotes j := by
  cases v with
  | bool b => exact ⟨.bool b, rfl, Operand.denotes_toJson _⟩
  | text s => exact ⟨.str s, rfl, Operand.denotes_toJson _⟩
  | instant t => exact ⟨.str t.text, rfl, Operand.denotes_toJson _⟩
  | integer i =>
    refine ⟨Json.ofInt64 i, ?_, Operand.denotes_toJson (.integer i)⟩
    exact toJson_numeral (number?_integerText (WideInt.ofInt64 i) (Int64.toInt_lt i))
  | float x =>
    cases x with
    | finite x =>
      obtain ⟨n, hn, hposition⟩ := number?_write_attribute x
      exact ⟨.num n, toJson_numeral hn, fun stored => compare?_num_congr hposition stored, fun s hs => by cases hs⟩
    | infinite negative => cases h
    | nan => cases h

end Dynamo

end DocQuery
