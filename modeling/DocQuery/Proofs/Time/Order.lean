import DocQuery.Proofs.Cursor
import DocQuery.Proofs.Decimal.Digits
import DocQuery.Proofs.Time.Calendar
import Mathlib.Data.Prod.Lex
import Mathlib.Order.Compare

/-!
# Texts of instants sort like the instants

The text of an instant is a row of numbers, from the year to the millisecond, each with a fixed number of digits. The numbers of
an earlier instant come first (`parts_lt`), and rows of such numbers are ordered as the numbers are (`written_lt`). So in the
years 0 to 9999 texts compare as the milliseconds of their instants do (`compare_text`), leap seconds included.
-/

namespace DocQuery.Instant

/-! ## Numbers of a fixed width -/

theorem digitChar_lt {m n : Nat} (h : m < n) (hn : n < 10) : m.digitChar < n.digitChar := by
  have hvalues : m.digitChar.toNat < n.digitChar.toNat := by
    rw [Nat.toNat_digitChar_of_lt_ten (h.trans hn), Nat.toNat_digitChar_of_lt_ten hn]
    omega
  exact hvalues

theorem padded_one {n : Nat} (h : n < 10) : padded 1 n = [n.digitChar] := by
  rw [padded, Decimal.naturalText, Nat.toDigits_of_lt_base h]
  rfl

/-- One digit more is the last digit after all others. -/
theorem padded_succ {width : Nat} (hwidth : 0 < width) (n : Nat) :
    padded (width + 1) n = padded width (n / 10) ++ [(n % 10).digitChar] := by
  simp only [padded, Decimal.naturalText]
  by_cases hn : n < 10
  · obtain ⟨k, rfl⟩ := Nat.exists_eq_succ_of_ne_zero hwidth.ne'
    rw [Nat.div_eq_of_lt hn, Nat.mod_eq_of_lt hn, Nat.toDigits_of_lt_base hn, Nat.toDigits_of_lt_base (by decide : 0 < 10)]
    simp [List.replicate_succ']
  · have hdigits : Nat.toDigits 10 n = Nat.toDigits 10 (n / 10) ++ [(n % 10).digitChar] := by
      rw [Nat.toDigits_eq_if (by decide), if_neg hn]
    rw [hdigits, List.length_append, List.length_singleton, Nat.add_sub_add_right, List.append_assoc]

/-- Whether a number can be written with so many digits, of which there is one at least. -/
def Fits (width n : Nat) : Prop := 0 < width ∧ n < 10 ^ width

/-- A number that fits has as many digits as asked for. -/
theorem Fits.length_padded {width n : Nat} (h : Fits width n) : (padded width n).length = width := by
  obtain ⟨hwidth, hn⟩ := h
  induction width, hwidth using Nat.le_induction generalizing n with
  | base => rw [padded_one (by simpa using hn), List.length_singleton]
  | succ width hwidth ih =>
    rw [padded_succ hwidth, List.length_append, List.length_singleton, ih (by omega)]

/-- Of lists with beginnings of one length, that with the smaller beginning comes first. -/
theorem append_lt_append {α : Type} [LT α] {as bs : List α} (h : as < bs) (hlength : as.length = bs.length) (cs ds : List α) :
    as ++ cs < bs ++ ds := by
  induction as generalizing bs with
  | nil =>
    obtain rfl := List.length_eq_zero_iff.1 hlength.symm
    cases h
  | cons a as ih =>
    cases bs with
    | nil => cases hlength
    | cons b bs =>
      rw [List.cons_append, List.cons_append, List.cons_lt_cons_iff]
      rcases List.cons_lt_cons_iff.1 h with hlt | ⟨heq, hlt⟩
      · exact .inl hlt
      · exact .inr ⟨heq, ih hlt (Nat.succ.inj hlength)⟩

/-- Of two numbers with equally many digits the smaller one comes first. -/
theorem padded_lt {width m n : Nat} (h : m < n) (hn : Fits width n) : padded width m < padded width n := by
  obtain ⟨hwidth, hn⟩ := hn
  induction width, hwidth using Nat.le_induction generalizing m n with
  | base =>
    rw [pow_one] at hn
    rw [padded_one (h.trans hn), padded_one hn, List.cons_lt_cons_iff]
    exact .inl (digitChar_lt h hn)
  | succ width hwidth ih =>
    have hfit : Fits width (n / 10) := ⟨hwidth, by omega⟩
    rw [padded_succ hwidth, padded_succ hwidth]
    rcases (Nat.div_le_div_right (c := 10) h.le).lt_or_eq with hlt | heq
    · have hlength : (padded width (m / 10)).length = (padded width (n / 10)).length := by
        rw [Fits.length_padded ⟨hwidth, hlt.trans hfit.2⟩, hfit.length_padded]
      exact append_lt_append (ih hlt hfit.2) hlength _ _
    · rw [heq]
      exact List.append_left_lt (List.cons_lt_cons_iff.2 (.inl (digitChar_lt (by omega) (Nat.mod_lt n (by decide)))))

/-! ## Rows of numbers -/

/-- Numbers one after the other, each with its number of digits and with a mark behind it. -/
def written : List (Nat × Char) → List Nat → List Char
  | (width, mark) :: layout, n :: ns => padded width n ++ mark :: written layout ns
  | _, _ => []

/-- Rows of numbers that fit into one layout are ordered as the numbers. -/
theorem written_lt {layout : List (Nat × Char)} {ms ns : List Nat} (hm : List.Forall₂ (fun f => Fits f.1) layout ms)
    (hn : List.Forall₂ (fun f => Fits f.1) layout ns) (h : ms < ns) : written layout ms < written layout ns := by
  induction hm generalizing ns with
  | nil =>
    cases hn
    cases h
  | cons hfit _ ih =>
    cases hn with
    | cons hfit' hns =>
      rw [written, written]
      rcases List.cons_lt_cons_iff.1 h with hlt | ⟨rfl, hlt⟩
      · exact append_lt_append (padded_lt hlt hfit') (by rw [hfit.length_padded, hfit'.length_padded]) _ _
      · exact List.append_left_lt (List.cons_lt_cons_iff.2 (.inr ⟨rfl, ih hns hlt⟩))

/-! ## Bytes -/

/-- Whether all characters are of ASCII. -/
def Ascii (cs : List Char) : Prop := ∀ c ∈ cs, c.toNat < 0x80

/-- A character of ASCII is one byte. -/
theorem utf8EncodeChar_of_lt {c : Char} (h : c.toNat < 0x80) : String.utf8EncodeChar c = [c.val.toUInt8] := by
  have hle : c.val ≤ 0x7F := UInt32.le_iff_toNat_le.2 (Nat.le_of_lt_succ h)
  exact String.utf8EncodeChar_eq_singleton (if_pos hle)

/-- The bytes of a text of ASCII are its characters. -/
theorem Ascii.toUTF8_ofList {cs : List Char} (h : Ascii cs) : (String.ofList cs).toUTF8.toList = cs.map (·.val.toUInt8) := by
  have hbytes : ∀ c ∈ cs, String.utf8EncodeChar c = [c.val.toUInt8] := fun c hc => utf8EncodeChar_of_lt (h c hc)
  rw [ByteArray.toList, toList_loop, String.toUTF8_eq_toByteArray, String.toByteArray_ofList, List.utf8Encode,
    List.data_toByteArray, List.flatMap_congr hbytes, ← List.map_eq_flatMap]
  rfl

/-- The bytes of characters of ASCII are ordered as the characters. -/
theorem Ascii.map_lt {cs ds : List Char} (hds : Ascii ds) (h : cs < ds) :
    cs.map (·.val.toUInt8) < ds.map (·.val.toUInt8) := by
  induction cs generalizing ds with
  | nil =>
    cases ds with
    | nil => cases h
    | cons d ds => exact List.nil_lt_cons _ _
  | cons c cs ih =>
    cases ds with
    | nil => cases h
    | cons d ds =>
      obtain ⟨hd, hrest⟩ := List.forall_mem_cons.1 hds
      rw [List.map_cons, List.map_cons, List.cons_lt_cons_iff]
      rcases List.cons_lt_cons_iff.1 h with hlt | ⟨rfl, hlt⟩
      · left
        have hcodes : c.toNat < d.toNat := hlt
        rw [UInt8.lt_iff_toNat_lt, UInt32.toNat_toUInt8, UInt32.toNat_toUInt8]
        change c.toNat % 256 < d.toNat % 256
        omega
      · exact .inr ⟨rfl, ih hrest hlt⟩

/-- Rows of numbers are of ASCII, if the marks are. -/
theorem ascii_written {layout : List (Nat × Char)} (h : ∀ f ∈ layout, f.2.toNat < 0x80) (ns : List Nat) :
    Ascii (written layout ns) := by
  have hpadded : ∀ width n, Ascii (padded width n) := by
    intro width n c hc
    rcases List.mem_append.1 hc with hzero | hdigit
    · rw [List.eq_of_mem_replicate hzero]
      decide
    · have hascii := Decimal.isAsciiDigit_of_mem_naturalText hdigit
      simp only [Text.isAsciiDigit, Bool.and_eq_true, decide_eq_true_eq] at hascii
      omega
  induction layout generalizing ns with
  | nil => exact List.forall_mem_nil _
  | cons f layout ih =>
    obtain ⟨hmark, hmarks⟩ := List.forall_mem_cons.1 h
    cases ns with
    | nil => exact List.forall_mem_nil _
    | cons n ns => exact List.forall_mem_append.2 ⟨hpadded f.1 n, List.forall_mem_cons.2 ⟨hmark, ih hmarks ns⟩⟩

/-! ## Instants -/

/-- Instants are ordered by their seconds, and within a second by their nanoseconds, so that a leap second comes before the
next second. -/
instance : LinearOrder Instant :=
  LinearOrder.lift' (fun t => toLex (t.seconds, t.nanos)) fun t u h => by
    obtain ⟨hseconds, hnanos⟩ := Prod.mk.inj (toLex.injective h)
    cases t
    cases u
    simp_all

/-- The millisecond of an instant: its second, and the whole milliseconds into it. -/
def millis (t : Instant) : Int ×ₗ Nat := toLex (t.seconds, t.nanos / 1000000)

/-- A later instant has no earlier millisecond. -/
theorem millis_mono : Monotone millis := by
  intro t u h
  rcases Prod.Lex.toLex_le_toLex.1 h with hlt | ⟨heq, hle⟩
  · exact Prod.Lex.toLex_le_toLex.2 (.inl hlt)
  · exact Prod.Lex.toLex_le_toLex.2 (.inr ⟨heq, Nat.div_le_div_right hle⟩)

/-- The day of an instant, counted from the start of year 0. -/
def day (t : Instant) : Int := t.seconds / 86400 + epochDay

/-- The second of its day. -/
def secondOfDay (t : Instant) : Nat := (t.seconds % 86400).toNat

/-- Whether an instant is one of a year from 0 to 9999. A leap second comes after the last second of a minute, and is no longer
than others. -/
structure Regular (t : Instant) : Prop where
  nanos : t.nanos < 2000000000
  leap : 1000000000 ≤ t.nanos → t.seconds % 60 = 59
  year : 0 ≤ yearOfDay t.day ∧ yearOfDay t.day ≤ 9999

/-- The hour, the minute, the second and the millisecond of a second of the day with nanoseconds into it. -/
def timeParts (second nanos : Nat) : List Nat :=
  [second / 3600, second / 60 % 60, second % 60 + nanos / 1000000000, nanos % 1000000000 / 1000000]

/-- Of two times of day the one with the earlier millisecond comes first, also if it is in a leap second. -/
theorem timeParts_lt {s s' n n' : Nat} (hnanos : n < 2000000000) (hleap : 1000000000 ≤ n → s % 60 = 59)
    (h : s < s' ∨ s = s' ∧ n / 1000000 < n' / 1000000) : timeParts s n < timeParts s' n' := by
  simp only [timeParts, List.cons_lt_cons_iff, lt_self_iff_false, and_false, or_false]
  omega

/-- The numbers in the text of an instant. -/
def parts (t : Instant) : List Nat := dateParts t.day ++ timeParts t.secondOfDay t.nanos

/-- How many digits each number in the text of an instant has, and the mark behind it. -/
def layout : List (Nat × Char) := [(4, '-'), (2, '-'), (2, 'T'), (2, ':'), (2, ':'), (2, '.'), (3, 'Z')]

/-- The numbers of an instant fit. -/
theorem Regular.fits {t : Instant} (h : t.Regular) : List.Forall₂ (fun f => Fits f.1) layout t.parts := by
  have hdate := monthDayOf_le t.day
  have hyear := h.year
  have hnanos := h.nanos
  have hsecond : t.secondOfDay < 86400 := by
    unfold secondOfDay
    omega
  simp only [layout, parts, dateParts, timeParts, List.cons_append, List.nil_append, List.forall₂_cons, List.Forall₂.nil,
    Fits, and_true]
  omega

/-- The text of an instant is the row of its numbers. -/
theorem Regular.chars_eq {t : Instant} (h : t.Regular) : t.chars = written layout t.parts := by
  have hyear : yearText (yearOfDay t.day) = padded 4 (yearOfDay t.day).natAbs := if_pos h.year
  simp only [day] at hyear
  simp [chars, hyear, written, layout, parts, dateParts, timeParts, monthDayOf, dayOfYear, day, secondOfDay]

/-- The numbers of the instant with the earlier millisecond come first. -/
theorem Regular.parts_lt {t u : Instant} (ht : t.Regular) (h : t.millis < u.millis) : t.parts < u.parts := by
  have hmillis := Prod.Lex.toLex_lt_toLex.1 h
  rcases lt_trichotomy t.day u.day with hlt | heq | hgt
  · exact append_lt_append (dateParts_lt ht.year.1 hlt) rfl _ _
  · have hsecond : t.secondOfDay % 60 = (t.seconds % 60).toNat := by
      unfold secondOfDay
      omega
    rw [parts, parts, heq]
    unfold day at heq
    refine List.append_left_lt (timeParts_lt ht.nanos (fun hnanos => by rw [hsecond, ht.leap hnanos]; rfl) ?_)
    unfold secondOfDay
    omega
  · unfold day at hgt
    omega

/-! ## Texts -/

/-- The text of the instant with the earlier millisecond comes first. -/
theorem Regular.text_lt {t u : Instant} (ht : t.Regular) (hu : u.Regular) (h : t.millis < u.millis) : t.text < u.text := by
  rw [String.lt_iff, text, text, String.toList_ofList, String.toList_ofList, ht.chars_eq, hu.chars_eq]
  exact written_lt ht.fits hu.fits (ht.parts_lt h)

/-- The bytes of its text come first too. -/
theorem Regular.bytes_lt {t u : Instant} (ht : t.Regular) (hu : u.Regular) (h : t.millis < u.millis) :
    t.text.toUTF8.toList < u.text.toUTF8.toList := by
  have hascii : ∀ ns, Ascii (written layout ns) := ascii_written (by decide)
  rw [text, text, ht.chars_eq, hu.chars_eq, (hascii t.parts).toUTF8_ofList, (hascii u.parts).toUTF8_ofList]
  exact (hascii u.parts).map_lt (written_lt ht.fits hu.fits (ht.parts_lt h))

/-- Instants of one millisecond have one text. -/
theorem text_eq {t u : Instant} (h : t.millis = u.millis) : t.text = u.text := by
  obtain ⟨hseconds, hnanos⟩ := Prod.mk.inj (toLex.injective h)
  have hleap : t.nanos / 1000000000 = u.nanos / 1000000000 := by omega
  have hrest : t.nanos % 1000000000 / 1000000 = u.nanos % 1000000000 / 1000000 := by omega
  rw [text, text, chars, chars, hseconds, hleap, hrest]

theorem compare_of_lt {s t : String} (h : s < t) : compare s t = .lt := if_pos h

/-- Texts of instants compare as the milliseconds of these. -/
theorem Regular.compare_text {t u : Instant} (ht : t.Regular) (hu : u.Regular) :
    compare t.text u.text = compare t.millis u.millis := by
  have hlt : ∀ {t u : Instant}, t.Regular → u.Regular → t.millis < u.millis → compare t.text u.text = .lt :=
    fun ht hu h => compare_of_lt (ht.text_lt hu h)
  rcases lt_trichotomy t.millis u.millis with hless | heq | hgt
  · rw [compare_lt_iff_lt.2 hless, hlt ht hu hless]
  · rw [compare_eq_iff_eq.2 heq, text_eq heq, Std.compare_self]
  · rw [compare_gt_iff_gt.2 hgt, Std.OrientedOrd.eq_swap, hlt hu ht hgt]
    rfl

end DocQuery.Instant
