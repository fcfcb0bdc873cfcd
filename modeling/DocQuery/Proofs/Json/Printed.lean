import DocQuery.Json.Printer
import DocQuery.Proofs.Decimal.Digits

/-!
# What a JSON text is made of

The text of a value holds no control character: controls in a text are escaped, and nothing else that is written is one
(`not_control_of_mem_chars`). So a control character between two JSON texts tells where the one ends and the other begins.
-/

namespace DocQuery

/-- A list of characters is looked through for controls. -/
theorem not_control_of_all {cs : List Char} (h : cs.all (0x20 ≤ ·.toNat) = true) : ∀ c ∈ cs, 0x20 ≤ c.toNat :=
  fun c hc => of_decide_eq_true (List.all_eq_true.1 h c hc)

/-! ## Numbers -/

namespace Decimal

/-- The characters of a number without its digits. -/
def marks : List Char := ['-', '.', 'e', '+']

/-- What is written around a point are the digits, zeros and the point. -/
theorem mem_positional {keepsPoint : Bool} {ds : List Char} {point : Int} {c : Char} (h : c ∈ positional keepsPoint ds point) :
    c ∈ ds ∨ c = '0' ∨ c ∈ marks := by
  rw [positional] at h
  split at h
  · simp only [List.mem_append, List.mem_cons, List.not_mem_nil, or_false] at h
    rcases h with ((rfl | rfl) | h) | h
    · exact .inr (.inl rfl)
    · exact .inr (.inr (by decide))
    · exact .inr (.inl (List.eq_of_mem_replicate h))
    · exact .inl h
  · split at h
    · rcases List.mem_append.1 h with h | h
      · exact (List.mem_append.1 h).imp_right fun h => .inl (List.eq_of_mem_replicate h)
      · cases keepsPoint with
        | false => cases h
        | true =>
          simp only [if_true, List.mem_cons, List.not_mem_nil, or_false] at h
          rcases h with rfl | rfl
          · exact .inr (.inr (by decide))
          · exact .inr (.inl rfl)
    · rcases List.mem_append.1 h with h | h
      · rcases List.mem_append.1 h with h | h
        · exact .inl (List.mem_of_mem_take h)
        · exact .inr (.inr (List.mem_singleton.1 h ▸ by decide))
      · exact .inl (List.mem_of_mem_drop h)

/-- What is written with an exponent are the digits, those of the exponent, and marks. -/
theorem mem_exponential {ds : List Char} {power : Int} {c : Char} (h : c ∈ exponential ds power) :
    c ∈ ds ∨ c ∈ naturalText power.natAbs ∨ c ∈ marks := by
  rw [exponential] at h
  rcases List.mem_append.1 h with h | h
  · rcases List.mem_append.1 h with h | h
    · rcases List.mem_append.1 h with h | h
      · exact .inl (List.mem_of_mem_take h)
      · split at h
        · cases h
        · rcases List.mem_cons.1 h with rfl | h
          · exact .inr (.inr (by decide))
          · exact .inl (List.mem_of_mem_drop h)
    · rcases List.mem_cons.1 h with rfl | h
      · exact .inr (.inr (by decide))
      · rw [List.mem_singleton] at h
        subst h
        exact .inr (.inr (by split <;> decide))
  · exact .inr (.inl h)

/-- A digit is no control character. -/
theorem not_control_of_digit {c : Char} (h : Text.isAsciiDigit c = true) : 0x20 ≤ c.toNat := by
  simp only [Text.isAsciiDigit, Bool.and_eq_true, decide_eq_true_eq] at h
  omega

/-- A mark is no control character. -/
theorem not_control_of_mark : ∀ c ∈ marks, 0x20 ≤ c.toNat := not_control_of_all (by decide)

/-- A number in a style is made of digits and marks. -/
theorem mem_write {style : Style} {x : Binary64} {c : Char} (h : c ∈ style.write x) : Text.isAsciiDigit c = true ∨ c ∈ marks := by
  have hplain : ∀ (ds : List Char) (point : Int), (∀ c ∈ ds, Text.isAsciiDigit c = true) →
      c ∈ positional style.keepsPoint ds point → Text.isAsciiDigit c = true ∨ c ∈ marks := by
    intro ds point hds hc
    rcases mem_positional hc with hc | rfl | hc
    · exact .inl (hds c hc)
    · exact .inl rfl
    · exact .inr hc
  have hexponential : ∀ (ds : List Char) (power : Int), (∀ c ∈ ds, Text.isAsciiDigit c = true) → c ∈ exponential ds power →
      Text.isAsciiDigit c = true ∨ c ∈ marks := by
    intro ds power hds hc
    rcases mem_exponential hc with hc | hc | hc
    · exact .inl (hds c hc)
    · exact .inl (isAsciiDigit_of_mem_naturalText hc)
    · exact .inr hc
  have hdigits : ∀ n, ∀ c ∈ naturalText n, Text.isAsciiDigit c = true := fun _ _ => isAsciiDigit_of_mem_naturalText
  rcases List.mem_append.1 h with h | h
  · split at h
    · exact .inr (List.mem_singleton.1 h ▸ by decide)
    · cases h
  · rw [Style.writeRank] at h
    split at h
    · exact hplain _ _ (List.forall_mem_singleton.2 rfl) h
    · simp only at h
      split at h
      · split at h
        · exact hplain _ _ (hdigits _) h
        · exact hexponential _ _ (hdigits _) h
      · exact hplain _ _ (hdigits _) h

end Decimal

/-! ## Values -/

namespace Json

/-- The digits of an escape are no control characters. -/
theorem not_control_hexDigit : ∀ n < 16, 0x20 ≤ (hexDigit n).toNat := by decide

/-- What stands for a character between quotes holds no control character. -/
theorem not_control_of_mem_escapeChar {c d : Char} (h : d ∈ escapeChar c) : 0x20 ≤ d.toNat := by
  rw [escapeChar] at h
  split_ifs at h with _ _ _ _ _ _ _ hcontrol
  iterate 7 · exact not_control_of_all (by decide) d h
  · have hhigh := not_control_hexDigit (c.toNat / 16) (by omega)
    have hlow := not_control_hexDigit (c.toNat % 16) (by omega)
    have hletters : ∀ d ∈ ['\\', 'u', '0', '0'], 0x20 ≤ d.toNat := not_control_of_all (by decide)
    rcases (List.mem_append (s := ['\\', 'u', '0', '0'])).1 h with h | h
    · exact hletters d h
    · rcases List.mem_pair.1 h with rfl | rfl
      · exact hhigh
      · exact hlow
  · exact List.mem_singleton.1 h ▸ Nat.le_of_not_lt hcontrol

/-- A quoted text holds no control character. -/
theorem not_control_of_mem_quote {cs : List Char} {d : Char} (h : d ∈ quote cs) : 0x20 ≤ d.toNat := by
  rcases List.mem_cons.1 h with rfl | h
  · decide
  · rcases List.mem_append.1 h with h | h
    · obtain ⟨c, -, hd⟩ := List.mem_flatMap.1 h
      exact not_control_of_mem_escapeChar hd
    · exact List.mem_singleton.1 h ▸ by decide

/-- The text of a number is made of digits and marks. -/
theorem mem_numberChars {n : Number} {c : Char} (h : c ∈ numberChars n) : Text.isAsciiDigit c = true ∨ c ∈ Decimal.marks := by
  cases n with
  | int i =>
    rw [numberChars, Decimal.integerText] at h
    split at h
    · rcases List.mem_cons.1 h with rfl | h
      · exact .inr (by decide)
      · exact .inl (Decimal.isAsciiDigit_of_mem_naturalText h)
    · exact .inl (Decimal.isAsciiDigit_of_mem_naturalText h)
  | float x => exact Decimal.mem_write h

/-- The text of a number holds no control character. -/
theorem not_control_of_mem_numberChars {n : Number} {c : Char} (h : c ∈ numberChars n) : 0x20 ≤ c.toNat := by
  rcases mem_numberChars h with h | h
  · exact Decimal.not_control_of_digit h
  · exact Decimal.not_control_of_mark c h

mutual

/-- The text of a value holds no control character. -/
theorem not_control_of_mem_chars : ∀ {j : Json} {c : Char}, c ∈ chars j → 0x20 ≤ c.toNat
  | .null, c, h => not_control_of_all (by decide) c h
  | .bool true, c, h => not_control_of_all (by decide) c h
  | .bool false, c, h => not_control_of_all (by decide) c h
  | .num n, c, h => not_control_of_mem_numberChars h
  | .str s, c, h => not_control_of_mem_quote h
  | .arr items, c, h => by
    rw [chars, List.mem_cons, List.mem_append, List.mem_singleton] at h
    rcases h with rfl | h | rfl
    · decide
    · exact not_control_of_mem_itemsChars h
    · decide
  | .obj members, c, h => by
    rw [chars, List.mem_cons, List.mem_append, List.mem_singleton] at h
    rcases h with rfl | h | rfl
    · decide
    · exact not_control_of_mem_membersChars h
    · decide

/-- The text of the items of an array holds no control character. -/
theorem not_control_of_mem_itemsChars : ∀ {items : List Json} {c : Char}, c ∈ itemsChars items → 0x20 ≤ c.toNat
  | [], c, h => by cases h
  | [j], c, h => not_control_of_mem_chars h
  | j :: k :: rest, c, h => by
    rw [itemsChars, List.mem_append, List.mem_cons] at h
    · rcases h with h | rfl | h
      · exact not_control_of_mem_chars h
      · decide
      · exact not_control_of_mem_itemsChars h
    · nofun

/-- The text of the members of an object holds no control character. -/
theorem not_control_of_mem_membersChars :
    ∀ {members : List (String × Json)} {c : Char}, c ∈ membersChars members → 0x20 ≤ c.toNat
  | [], c, h => by cases h
  | [(k, j)], c, h => by
    rw [membersChars, List.mem_append, List.mem_cons] at h
    rcases h with h | rfl | h
    · exact not_control_of_mem_quote h
    · decide
    · exact not_control_of_mem_chars h
  | (k, j) :: e :: rest, c, h => by
    rw [membersChars, List.mem_append, List.mem_cons, List.mem_append, List.mem_cons] at h
    · rcases h with h | rfl | h | rfl | h
      · exact not_control_of_mem_quote h
      · decide
      · exact not_control_of_mem_chars h
      · decide
      · exact not_control_of_mem_membersChars h
    · nofun

end

end Json

end DocQuery
