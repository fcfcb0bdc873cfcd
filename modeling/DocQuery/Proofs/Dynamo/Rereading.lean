import DocQuery.Proofs.Dynamo.Attributes
import DocQuery.Proofs.Filter.Valid

/-!
# What is read from items stands

Several tags are read as values of one kind: binary data as its text, sets as lists, and numerals of every form as numbers. A
number that is read is an integer of 64 bits with a sign or a binary64 number, so the values that are read are those without
integers beyond these (`exists_toJson_iff`). Such a value is written under the tag of its kind and read again as itself
(`reading_stands`), and so is a document.
-/

namespace DocQuery.Dynamo

/-- No numeral is read as an integer beyond the signed 64-bit ones. -/
theorem narrow_of_number? {s : String} {n : Number} (h : number? s = some n) : (Json.num n).Narrow := by
  simp only [number?] at h
  split at h
  · next i hexact =>
    obtain ⟨k, -, hk⟩ := Option.bind_eq_some_iff.1 hexact
    split at hk
    · next hlt =>
      rw [WideInt.ofInt?] at hk
      split at hk
      · cases h
        cases hk
        exact hlt
      · cases hk
    · cases hk
  · obtain ⟨x, -, rfl⟩ := Option.map_eq_some_iff.1 h
    trivial

/-- A number that is read is narrow. -/
theorem narrow_of_readNumber {s : String} {j : Json} (h : readNumber s = .ok j) : j.Narrow := by
  rw [readNumber] at h
  split at h
  · next n hn =>
    cases h
    exact narrow_of_number? hn
  · cases h

/-- A text that is read from a set is narrow. -/
theorem narrow_of_readSetText {tag : String} {v j : Json} (h : readSetText tag v = .ok j) : j.Narrow := by
  cases v <;> cases h
  trivial

/-- A number that is read from a set is narrow. -/
theorem narrow_of_readSetNumber {v j : Json} (h : readSetNumber v = .ok j) : j.Narrow := by
  cases v with
  | str s => exact narrow_of_readNumber h
  | _ => cases h

/-- A set of narrow values is narrow. -/
theorem narrow_of_readSet {tag : String} {readMember : Json → Except AttributeFault Json}
    (hmember : ∀ v j, readMember v = .ok j → j.Narrow) {v j : Json} (h : readSet tag readMember v = .ok j) : j.Narrow := by
  cases v with
  | arr items =>
    obtain ⟨js, hjs, rfl⟩ := of_map_eq_ok h
    rw [Json.Narrow]
    clear h
    induction items generalizing js with
    | nil =>
      cases hjs
      trivial
    | cons v items ih =>
      rw [List.mapM_cons] at hjs
      obtain ⟨j, hj, hjs⟩ := of_bind_eq_ok hjs
      obtain ⟨rest, hrest, hjs⟩ := of_bind_eq_ok hjs
      cases hjs
      exact ⟨hmember v j hj, ih rest hrest⟩
  | _ => cases h

/-- Binary data that is read is a text. -/
theorem narrow_of_readBinary {v j : Json} (h : readBinary v = .ok j) : j.Narrow := by
  cases v with
  | str s =>
    rw [readBinary] at h
    split at h
    · cases h
      trivial
    · cases h
  | _ => cases h

mutual

/-- Whatever the tag, a value that is read is narrow. -/
theorem narrow_of_toJson : ∀ {a j : Json}, toJson a = .ok j → j.Narrow
  | .obj [(tag, v)], j, h => by
    unfold toJson at h
    split_ifs at h
    · obtain ⟨s, -, rfl⟩ := of_map_eq_ok h
      trivial
    · obtain ⟨s, -, h⟩ := of_bind_eq_ok h
      exact narrow_of_readNumber h
    · cases v <;> cases h
      trivial
    · cases h
      trivial
    · exact narrow_of_readBinary h
    · cases v with
      | arr items =>
        obtain ⟨js, hjs, rfl⟩ := of_map_eq_ok h
        exact narrowItems_of_toItems hjs
      | _ => cases h
    · cases v with
      | obj members =>
        obtain ⟨ms, hms, rfl⟩ := of_map_eq_ok h
        exact narrowMembers_of_toMembers hms
      | _ => cases h
    · exact narrow_of_readSet (fun _ _ => narrow_of_readSetText) h
    · exact narrow_of_readSet (fun _ _ => narrow_of_readSetNumber) h
  | .obj [], j, h => by
    rw [toJson] at h
    cases h
  | .obj (_ :: _ :: _), j, h => by
    rw [toJson] at h
    · cases h
    · nofun
    · nofun
  | .null, _, h => by cases h
  | .bool _, _, h => by cases h
  | .num _, _, h => by cases h
  | .str _, _, h => by cases h
  | .arr _, _, h => by cases h

/-- The values that are read from a list are narrow. -/
theorem narrowItems_of_toItems : ∀ {items js : List Json}, toItems items = .ok js → Json.NarrowItems js
  | [], js, h => by
    cases h
    trivial
  | v :: items, js, h => by
    rw [toItems] at h
    obtain ⟨j, hj, h⟩ := of_bind_eq_ok h
    obtain ⟨rest, hrest, h⟩ := of_bind_eq_ok h
    cases h
    exact ⟨narrow_of_toJson hj, narrowItems_of_toItems hrest⟩

/-- The members that are read from a map are narrow. -/
theorem narrowMembers_of_toMembers :
    ∀ {members ms : List (String × Json)}, toMembers members = .ok ms → Json.NarrowMembers ms
  | [], ms, h => by
    cases h
    trivial
  | (name, v) :: members, ms, h => by
    rw [toMembers] at h
    obtain ⟨j, hj, h⟩ := of_bind_eq_ok h
    obtain ⟨rest, hrest, h⟩ := of_bind_eq_ok h
    cases h
    exact ⟨narrow_of_toJson hj, narrowMembers_of_toMembers hrest⟩

end

/-- A narrow value is read again from what is written for it. -/
theorem toJson_ofJson {j : Json} (h : j.Narrow) : toJson (ofJson j) = .ok j := by
  rw [toJson_ofJson_settled, Json.settled_eq_iff.2 h]

/-- The values that are read from attributes are those without integers beyond the signed 64-bit ones. -/
theorem exists_toJson_iff {j : Json} : (∃ a, toJson a = .ok j) ↔ j.Narrow := by
  constructor
  · rintro ⟨a, ha⟩
    exact narrow_of_toJson ha
  · intro h
    exact ⟨ofJson j, toJson_ofJson h⟩

/-- What is read from an attribute, under whatever tag, is written back and read again as the same value, and what is read from an
item as the same document. -/
theorem reading_stands :
    (∀ a j : Json, toJson a = .ok j → toJson (ofJson j) = .ok j) ∧
      ∀ (item : Item) (d : Document), toDocument item = .ok d → toDocument (ofDocument d) = .ok d := by
  constructor
  · intro a j h
    exact toJson_ofJson (narrow_of_toJson h)
  · intro item d h
    exact toDocument_ofDocument (narrowMembers_of_toMembers h)

/-- A map with numerals of several forms, a set of them and binary data is read as values that stand, alone and in an item. -/
theorem reading_stands_of_numerals :
    let a : Json := .obj [("M", .obj [("n", .obj [("L", .arr [.obj [("N", .str "+5")], .obj [("N", .str "-0")],
        .obj [("N", .str "1e3")], .obj [("N", .str "1000000000000000000000000000000000000000")]])]),
      ("s", .obj [("NS", .arr [.str "-0.0", .str "18446744073709551615"])]), ("b", .obj [("B", .str "AQ==")])])]
    let j : Json := .obj [("n", .arr [Json.ofInt64 5, Json.ofInt64 0, .num (.float (.ofNat 1000)),
        .num (.float (.ofNat 1000000000000000000000000000000000000000))]),
      ("s", .arr [.num (.float ⟨true, 0, by decide⟩), .num (.float (.ofNat 18446744073709551616))]), ("b", .str "AQ==")]
    toJson a = .ok j ∧ toJson (ofJson j) = .ok j ∧
      toDocument [("x", a)] = .ok [("x", j)] ∧ toDocument (ofDocument [("x", j)]) = .ok [("x", j)] := by
  intro a j
  have hplus : number? "+5" = some (.int (WideInt.ofInt64 5)) := by decide +kernel
  have hminus : number? "-0" = some (.int (WideInt.ofInt64 0)) := by decide +kernel
  have hpower : number? "1e3" = some (.float (.ofNat 1000)) := by decide +kernel
  have hlong : number? "1000000000000000000000000000000000000000" =
      some (.float (.ofNat 1000000000000000000000000000000000000000)) := by decide +kernel
  have hzero : number? "-0.0" = some (.float ⟨true, 0, by decide⟩) := by decide +kernel
  have hwide : number? "18446744073709551615" = some (.float (.ofNat 18446744073709551616)) := by decide +kernel
  have hbinary : readBinary (.str "AQ==") = .ok (.str "AQ==") := rfl
  have hread : toJson a = .ok j := by
    simp [a, j, toJson, toItems, toMembers, readText, readSet, readSetNumber, readNumber, hplus, hminus, hpower, hlong, hzero,
      hwide, hbinary, Except.map, Json.ofInt64, bind, Except.bind, pure, Except.pure]
  have hitem : toDocument [("x", a)] = .ok [("x", j)] := by
    rw [toDocument, toMembers, hread]
    rfl
  exact ⟨hread, reading_stands.1 a j hread, hitem, reading_stands.2 [("x", a)] [("x", j)] hitem⟩

end DocQuery.Dynamo
