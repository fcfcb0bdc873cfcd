import DocQuery.Json.Printer
import DocQuery.Json.Raw

/-!
# Quoted texts determine their texts

What stands between the quotes is read back part by part, so that different texts have different JSON texts.
-/

namespace DocQuery.Json

open Raw

/-- How a character is read back: by its number where it has an escape of four digits, and as itself otherwise. -/
def partOf (c : Char) : Part :=
  if c.toNat < 0x20 ∧ ¬(c.toNat = 0x8 ∨ c.toNat = 0xC ∨ c = '\n' ∨ c = '\r' ∨ c = '\t') then .unit c.toNat else .char c

/-- Different characters are read back differently. -/
theorem partOf_injective : Function.Injective partOf := by
  intro c d h
  rw [partOf, partOf] at h
  split at h <;> split at h
  · exact Char.toNat_inj.1 (Part.unit.inj h)
  · cases h
  · cases h
  · exact Part.char.inj h

/-- The digits of an escape are read as the number of the character. -/
theorem hexValue4?_hexDigit : ∀ n < 0x20, hexValue4? '0' '0' (hexDigit (n / 16)) (hexDigit (n % 16)) = some n := by
  decide

/-- An escape of one character is read as that character. -/
theorem readParts_short {e c : Char} (he : shortEscape? e = some c) (more : List Char) :
    readParts ('\\' :: e :: more) = (readParts more).map fun (parts, rest) => (.char c :: parts, rest) := by
  have hu : e ≠ 'u' := by
    rintro rfl
    cases he
  rw [readParts.eq_4 e more fun _ _ _ _ _ h => absurd h hu, he]
  cases readParts more <;> rfl

/-- A character without an escape is read as itself. -/
theorem readParts_plain {c : Char} (hquote : c ≠ '"') (hslash : c ≠ '\\') (hc : ¬c.toNat < 0x20) (more : List Char) :
    readParts (c :: more) = (readParts more).map fun (parts, rest) => (.char c :: parts, rest) := by
  rw [readParts.eq_5 c more hquote (fun _ _ _ _ _ h => absurd h hslash) fun _ _ h => absurd h hslash, if_neg hc]
  cases readParts more <;> rfl

/-- A character between quotes is read back. -/
theorem readParts_escapeChar (c : Char) (more : List Char) :
    readParts (escapeChar c ++ more) = (readParts more).map fun (parts, rest) => (partOf c :: parts, rest) := by
  unfold escapeChar
  split
  · next hc => subst hc; exact readParts_short rfl more
  split
  · next hc => subst hc; exact readParts_short rfl more
  split
  · next hc =>
    obtain rfl : c = Char.ofNat 0x8 := by rw [← hc, Char.ofNat_toNat]
    exact readParts_short rfl more
  split
  · next hc =>
    obtain rfl : c = Char.ofNat 0xC := by rw [← hc, Char.ofNat_toNat]
    exact readParts_short rfl more
  split
  · next hc => subst hc; exact readParts_short rfl more
  split
  · next hc => subst hc; exact readParts_short rfl more
  split
  · next hc => subst hc; exact readParts_short rfl more
  split
  · next _ _ hb hf hn hr ht hc =>
    have hpart : partOf c = .unit c.toNat := if_pos ⟨hc, by simp [hb, hf, hn, hr, ht]⟩
    simp only [List.cons_append, List.nil_append]
    rw [readParts.eq_3, hexValue4?_hexDigit _ hc, hpart]
    cases readParts more <;> rfl
  · next hquote hslash _ _ _ _ _ hc =>
    have hpart : partOf c = .char c := if_neg fun h => hc h.1
    rw [hpart]
    exact readParts_plain hquote hslash hc more

/-- A quoted text is read back up to its closing quote. -/
theorem readParts_quoted (cs rest : List Char) :
    readParts (cs.flatMap escapeChar ++ '"' :: rest) = some (cs.map partOf, rest) := by
  induction cs with
  | nil => rfl
  | cons c cs ih => rw [List.flatMap_cons, List.append_assoc, readParts_escapeChar, ih]; rfl

/-- Different texts are quoted differently. -/
theorem quote_injective : Function.Injective quote := by
  intro cs ds h
  have hparts := readParts_quoted cs []
  rw [(List.cons.inj h).2, readParts_quoted] at hparts
  exact ((List.map_inj_right fun _ _ he => partOf_injective he).1 (Prod.mk.inj (Option.some.inj hparts)).1).symm

end DocQuery.Json
