import DocQuery.Cursor
import DocQuery.Proofs.Text.Base64

/-!
# Cursors are read back

Base 64 gives back the bytes that were written, so the cursor of a continuation is read as that continuation. Only the empty
continuation has a cursor that is not read, because it is empty too.
-/

namespace DocQuery

/-! ## Text as bytes -/

/-- The bytes of an array, from one on. -/
theorem toList_loop (bytes : ByteArray) (i : Nat) (r : List UInt8) :
    ByteArray.toList.loop bytes i r = r.reverse ++ bytes.data.toList.drop i := by
  fun_induction ByteArray.toList.loop bytes i r with
  | case1 i r h ih =>
    have hlt : i < bytes.data.toList.length := h
    have hget : bytes.get! i = bytes.data.toList[i] := getElem!_pos bytes.data i h
    rw [ih, List.drop_eq_getElem_cons hlt, hget]
    simp
  | case2 i r h =>
    have hle : bytes.data.toList.length ≤ i := Nat.not_lt.1 h
    rw [List.drop_eq_nil_of_le hle, List.append_nil]

/-- The bytes of a text as an array again. -/
theorem toArray_toUTF8 (s : String) : (⟨s.toUTF8.toList.toArray⟩ : ByteArray) = s.toUTF8 := by
  rw [ByteArray.toList, toList_loop]
  simp

/-- The bytes of a text are read as that text. -/
theorem fromUTF8?_toUTF8 (s : String) : String.fromUTF8? ⟨s.toUTF8.toList.toArray⟩ = some s := by
  rw [toArray_toUTF8, String.fromUTF8?, String.toUTF8_eq_toByteArray, dif_pos s.isValidUTF8]
  rfl

/-- Only the empty text has no bytes. -/
theorem toUTF8_eq_nil {s : String} : s.toUTF8.toList = [] ↔ s = "" := by
  constructor
  · intro hnil
    have hread := fromUTF8?_toUTF8 s
    rw [hnil] at hread
    exact (Option.some.inj hread).symm
  · rintro rfl
    rw [ByteArray.toList, toList_loop]
    rfl

/-- Bytes that are read as a text are the bytes of that text. -/
theorem fromUTF8?_eq_some_iff {bytes : List UInt8} {s : String} :
    String.fromUTF8? ⟨bytes.toArray⟩ = some s ↔ s.toUTF8.toList = bytes := by
  constructor
  · intro h
    rw [String.fromUTF8?] at h
    split at h
    case isFalse => cases h
    case isTrue hvalid =>
      obtain rfl := Option.some.inj h
      rw [String.toUTF8_eq_toByteArray, String.fromUTF8, ByteArray.toList, toList_loop]
      simp
  · rintro rfl
    exact fromUTF8?_toUTF8 s

/-! ## Cursors -/

namespace Cursor

/-- What is handed out is the one text that spells the bytes of the continuation. -/
theorem encode_eq_iff {cursor token : String} :
    encode token = cursor ↔ Text.Base64.Spells cursor.toList token.toUTF8.toList := by
  rw [encode, ← String.toList_inj, String.toList_ofList, Text.Base64.encode_eq_iff]

/-- The empty continuation is the one with an empty cursor. -/
theorem encode_eq_empty {token : String} : encode token = "" ↔ token = "" := by
  rw [encode, String.ofList_eq_empty_iff, ← toUTF8_eq_nil]
  constructor
  · intro hnil
    have hread := Text.Base64.decode_encode token.toUTF8.toList
    rw [hnil] at hread
    exact (Option.some.inj hread).symm
  · intro hnil
    rw [hnil]
    rfl

/-- The cursor of a continuation is read as that continuation. -/
theorem decode_encode {token : String} (h : token ≠ "") : decode (encode token) = .ok token := by
  have hread := Text.Base64.decode_encode token.toUTF8.toList
  have hne : (encode token).isEmpty = false := by
    rw [Bool.eq_false_iff]
    intro hempty
    exact h (encode_eq_empty.1 (String.isEmpty_iff.1 hempty))
  rw [decode, hne, encode, String.toList_ofList, hread]
  simp only [Bool.false_eq_true, if_false, fromUTF8?_toUTF8]

/-- A continuation that is read out of a cursor is not empty, and the cursor is its own. -/
theorem encode_of_decode {cursor token : String} (h : decode cursor = .ok token) : token ≠ "" ∧ encode token = cursor := by
  unfold decode at h
  split at h
  case isTrue => cases h
  case isFalse hcursor =>
    split at h
    case h_1 => cases h
    case h_2 bytes hbytes =>
      split at h
      case h_2 => cases h
      case h_1 read hread =>
        obtain rfl := Except.ok.inj h
        have hencode : encode read = cursor := by
          rw [encode, fromUTF8?_eq_some_iff.1 hread, Text.Base64.encode_of_decode hbytes, String.ofList_toList]
        refine ⟨?_, hencode⟩
        intro hempty
        exact hcursor (String.isEmpty_iff.2 (hencode ▸ encode_eq_empty.2 hempty))

/-- Reading a cursor can only fail over the cursor. -/
theorem decode_error {cursor : String} {e : Error} (h : decode cursor = .error e) : ∃ fault, e = .invalidCursor fault := by
  unfold decode at h
  split at h
  · exact ⟨_, (Except.error.inj h).symm⟩
  split at h
  · exact ⟨_, (Except.error.inj h).symm⟩
  split at h
  · cases h
  · exact ⟨_, (Except.error.inj h).symm⟩

/-- The cursors in their one form: they spell well-formed UTF-8 that is not empty. -/
def Canonical (cursor : String) : Prop :=
  ∃ bytes : List UInt8, bytes ≠ [] ∧ (⟨bytes.toArray⟩ : ByteArray).IsValidUTF8 ∧ Text.Base64.Spells cursor.toList bytes

/-- A cursor is read exactly when it has the one form. -/
theorem canonical_iff {cursor : String} : Canonical cursor ↔ ∃ token, decode cursor = .ok token := by
  constructor
  · rintro ⟨bytes, hne, hvalid, hspells⟩
    let token : String := ⟨⟨bytes.toArray⟩, hvalid⟩
    have hbytes : token.toUTF8.toList = bytes := fromUTF8?_eq_some_iff.1 (by rw [String.fromUTF8?, dif_pos hvalid]; rfl)
    have hcursor : encode token = cursor := encode_eq_iff.2 (hbytes.symm ▸ hspells)
    have htoken : token ≠ "" := by
      intro hempty
      exact hne (hbytes ▸ toUTF8_eq_nil.2 hempty)
    exact ⟨token, hcursor ▸ decode_encode htoken⟩
  · rintro ⟨token, hread⟩
    obtain ⟨hne, hcursor⟩ := encode_of_decode hread
    have hvalid : (⟨token.toUTF8.toList.toArray⟩ : ByteArray).IsValidUTF8 := by
      rw [toArray_toUTF8]
      exact token.isValidUTF8
    exact ⟨token.toUTF8.toList, fun hnil => hne (toUTF8_eq_nil.1 hnil), hvalid, encode_eq_iff.1 hcursor⟩

/-- Handing a cursor out and reading it undo each other: a cursor is read as the non-empty continuation it was made of and as no
other one, no other cursor is read as that continuation, and what has not the one form is turned down as a cursor. -/
theorem codec_exact (cursor token : String) :
    (decode cursor = .ok token ↔ token ≠ "" ∧ encode token = cursor) ∧
      decode (encode token) = (if token = "" then .error (.invalidCursor .empty) else .ok token) ∧
      {c | decode c = .ok token}.Subsingleton ∧
      (encode token = cursor ↔ Text.Base64.Spells cursor.toList token.toUTF8.toList) ∧
      ((∃ fault, decode cursor = .error (.invalidCursor fault)) ↔ ¬ Canonical cursor) := by
  refine ⟨⟨encode_of_decode, ?_⟩, ?_, ?_, encode_eq_iff, ?_⟩
  · rintro ⟨hne, rfl⟩
    exact decode_encode hne
  · split
    case isTrue hempty =>
      rw [encode_eq_empty.2 hempty]
      rfl
    case isFalse hne => exact decode_encode hne
  · intro c hc d hd
    exact (encode_of_decode hc).2.symm.trans (encode_of_decode hd).2
  · rw [canonical_iff]
    cases hread : decode cursor with
    | error e =>
      obtain ⟨fault, rfl⟩ := decode_error hread
      simp
    | ok t => simp

end Cursor

end DocQuery
