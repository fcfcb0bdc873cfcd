import DocQuery.Decimal.Numeral
import DocQuery.Decimal.Style
import Mathlib.Tactic

/-!
# Digits

The decimal digits of a natural number stand for it, so that different numbers have different digits, and the text of an integer
is read back as that integer.
-/

namespace DocQuery.Decimal

open DocQuery.Text (isAsciiDigit)

theorem digitsValue_append (n : Nat) (ds es : List Char) :
    digitsValue n (ds ++ es) = digitsValue (digitsValue n ds) es :=
  List.foldl_append

/-- Digits stand for a number as they do in the core library. -/
theorem digitsValue_eq (n : Nat) (ds : List Char) : digitsValue n ds = Nat.ofDigitChars 10 ds n :=
  Nat.ofDigitChars_eq_foldl.symm

/-- The digits of a number stand for it. -/
theorem digitsValue_naturalText (n : Nat) : digitsValue 0 (naturalText n) = n := by
  rw [digitsValue_eq, naturalText, Nat.ofDigitChars_ten_toDigits]

/-- Zeros shift what the digits before them stand for. -/
theorem digitsValue_replicate (n k : Nat) : digitsValue n (List.replicate k '0') = 10 ^ k * n := by
  rw [digitsValue_eq, Nat.ofDigitChars_replicate_zero]

/-- Different numbers have different digits. -/
theorem naturalText_injective : Function.Injective naturalText := fun m n h => by
  rw [← digitsValue_naturalText m, h, digitsValue_naturalText]

/-- Different numbers have different names that begin alike. -/
theorem numbered_injective (start : String) : Function.Injective fun n => start ++ String.ofList (naturalText n) := by
  intro m n h
  have hdigits := congrArg String.toList h
  simp only [String.toList_append, String.toList_ofList] at hdigits
  exact naturalText_injective (List.append_cancel_left hdigits)

theorem naturalText_ne_nil (n : Nat) : naturalText n ≠ [] := Nat.toDigits_ne_nil

/-- The digits of a number are digits of ASCII. -/
theorem isAsciiDigit_of_mem_naturalText {n : Nat} {c : Char} (h : c ∈ naturalText n) : isAsciiDigit c = true := by
  have hd := Nat.isDigit_of_mem_toDigits (by decide) (by decide) h
  simp only [Char.isDigit, Bool.and_eq_true, decide_eq_true_eq, UInt32.le_iff_toNat_le] at hd
  simp only [isAsciiDigit, Bool.and_eq_true, decide_eq_true_eq]
  exact hd

/-- The digits of a number are nothing but digits. -/
theorem all_isAsciiDigit_naturalText (n : Nat) : (naturalText n).all isAsciiDigit = true :=
  List.all_eq_true.2 fun _ => isAsciiDigit_of_mem_naturalText

/-- Digits begin with no sign. -/
theorem ne_sign_of_digits {ds : List Char} (h : ds.all isAsciiDigit = true) (rest : List Char) :
    ds ≠ '-' :: rest ∧ ds ≠ '+' :: rest := by
  constructor <;> rintro rfl <;> rw [List.all_cons, Bool.and_eq_true] at h <;> exact absurd h.1 (by decide)

/-- Digits by themselves are an integer. -/
theorem integer?_digits {ds : List Char} (h : ds.all isAsciiDigit = true) (hne : ds ≠ []) :
    integer? ds = some (digitsValue 0 ds : Int) := by
  rw [integer?]
  · simp [h, hne]
  · exact fun es => (ne_sign_of_digits h es).1
  · exact fun es => (ne_sign_of_digits h es).2

/-- Digits after a plus sign are an integer. -/
theorem integer?_plus {ds : List Char} (h : ds.all isAsciiDigit = true) (hne : ds ≠ []) :
    integer? ('+' :: ds) = some (digitsValue 0 ds : Int) := by
  simp [integer?, h, hne]

/-- Digits after a minus sign are an integer. -/
theorem integer?_minus {ds : List Char} (h : ds.all isAsciiDigit = true) (hne : ds ≠ []) :
    integer? ('-' :: ds) = some (-(digitsValue 0 ds : Int)) := by
  simp [integer?, h, hne]

/-- An integer is digits after at most one sign. -/
theorem digits_of_integer? {cs : List Char} {i : Int} (h : integer? cs = some i) :
    ∃ ds, ds.all isAsciiDigit = true ∧ ds ≠ [] ∧
      ((cs = '-' :: ds ∧ i = -(digitsValue 0 ds : Int)) ∨ (cs = '+' :: ds ∧ i = digitsValue 0 ds) ∨
        (cs = ds ∧ i = digitsValue 0 ds)) := by
  simp only [integer?] at h
  split at h
  · next ds =>
    refine ⟨ds, ?_⟩
    split at h
    · next hd =>
      simp only [Bool.and_eq_true, Bool.not_eq_true', List.isEmpty_eq_false_iff] at hd
      exact ⟨hd.2, hd.1, Or.inl ⟨rfl, (Option.some.inj h).symm⟩⟩
    · cases h
  · next ds =>
    refine ⟨ds, ?_⟩
    split at h
    · next hd =>
      simp only [Bool.and_eq_true, Bool.not_eq_true', List.isEmpty_eq_false_iff] at hd
      exact ⟨hd.2, hd.1, Or.inr (Or.inl ⟨rfl, (Option.some.inj h).symm⟩)⟩
    · cases h
  · refine ⟨cs, ?_⟩
    split at h
    · next hd =>
      simp only [Bool.and_eq_true, Bool.not_eq_true', List.isEmpty_eq_false_iff] at hd
      exact ⟨hd.2, hd.1, Or.inr (Or.inr ⟨rfl, (Option.some.inj h).symm⟩)⟩
    · cases h

/-- The text of an integer is read back. -/
theorem integer?_integerText (i : Int) : integer? (integerText i) = some i := by
  rw [integerText]
  split
  · rw [integer?_minus (all_isAsciiDigit_naturalText _) (naturalText_ne_nil _), digitsValue_naturalText]
    exact congrArg some (by omega)
  · rw [integer?_digits (all_isAsciiDigit_naturalText _) (naturalText_ne_nil _), digitsValue_naturalText]
    exact congrArg some (by omega)

end DocQuery.Decimal
