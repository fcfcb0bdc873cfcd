import DocQuery.Time.Instant
import Mathlib.Tactic

/-!
# The calendar keeps the order of days

A day has a year, in which it is one of the 365 or 366, and in the year a month and a day of the month. Each of these steps
keeps the order of days: of two days the earlier one has the earlier year or, within one year, the earlier month or, within one
month, the earlier day of the month (`dateParts_lt`).
-/

namespace DocQuery.Instant

/-! ## Years -/

/-- A later year has no fewer days before it. -/
theorem daysBeforeYear_mono {y z : Int} (h : y ≤ z) : daysBeforeYear y ≤ daysBeforeYear z := by
  unfold daysBeforeYear
  omega

/-- The year of a day begins no later than this day and ends after it. -/
theorem yearOfDay_spec (d : Int) : daysBeforeYear (yearOfDay d) ≤ d ∧ d < daysBeforeYear (yearOfDay d + 1) := by
  unfold yearOfDay
  simp only
  split_ifs with hbefore hafter
  · rw [Int.sub_add_cancel]
    refine ⟨?_, hbefore⟩
    unfold daysBeforeYear
    omega
  · refine ⟨hafter, ?_⟩
    unfold daysBeforeYear
    omega
  · exact ⟨Int.not_lt.1 hbefore, Int.not_le.1 hafter⟩

/-- The days of a year are those of its months. -/
theorem daysBeforeYear_succ (y : Int) : daysBeforeYear (y + 1) = daysBeforeYear y + (monthLengths (isLeapYear y)).sum := by
  by_cases h4 : y % 4 = 0 <;> by_cases h100 : y % 100 = 0 <;> by_cases h400 : y % 400 = 0 <;>
    simp [isLeapYear, monthLengths, daysBeforeYear, h4, h100, h400] <;> omega

/-- The day of the year, from zero. -/
def dayOfYear (d : Int) : Nat := (d - daysBeforeYear (yearOfDay d)).toNat

/-- The day of the year is one of the days of the months. -/
theorem dayOfYear_lt (d : Int) : dayOfYear d < (monthLengths (isLeapYear (yearOfDay d))).sum := by
  have hspec := yearOfDay_spec d
  have hnext := daysBeforeYear_succ (yearOfDay d)
  unfold dayOfYear
  omega

/-- An earlier day has an earlier year, or it is an earlier day of the same year. -/
theorem yearOfDay_lt_or {d e : Int} (h : d < e) :
    yearOfDay d < yearOfDay e ∨ yearOfDay d = yearOfDay e ∧ dayOfYear d < dayOfYear e := by
  have hd := yearOfDay_spec d
  have he := yearOfDay_spec e
  rcases lt_trichotomy (yearOfDay d) (yearOfDay e) with hlt | heq | hgt
  · exact .inl hlt
  · refine .inr ⟨heq, ?_⟩
    unfold dayOfYear
    rw [← heq] at he ⊢
    omega
  · have hmono := daysBeforeYear_mono (Int.add_one_le_of_lt hgt)
    omega

/-! ## Months -/

/-- The month is not before that of the first length. -/
theorem le_monthDay (month day : Nat) (lengths : List Nat) : month ≤ (monthDay month day lengths).1 := by
  induction lengths generalizing month day with
  | nil => exact le_rfl
  | cons length rest ih =>
    rw [monthDay]
    split
    · exact le_rfl
    · exact (Nat.le_succ month).trans (ih (month + 1) (day - length))

/-- A day within the months is in one of them. -/
theorem monthDay_lt {month day : Nat} {lengths : List Nat} (hday : day < lengths.sum) :
    (monthDay month day lengths).1 < month + lengths.length := by
  induction lengths generalizing month day with
  | nil => cases hday
  | cons length rest ih =>
    rw [List.sum_cons] at hday
    rw [monthDay, List.length_cons]
    split
    · exact Nat.lt_add_of_pos_right (Nat.succ_pos _)
    · exact (@ih (month + 1) (day - length) (by omega)).trans_le (by omega)

/-- A day within the months is a day of a month as long as the month at most. -/
theorem monthDay_day_le {month day bound : Nat} {lengths : List Nat} (hday : day < lengths.sum)
    (hbound : ∀ length ∈ lengths, length ≤ bound) : (monthDay month day lengths).2 ≤ bound := by
  induction lengths generalizing month day with
  | nil => cases hday
  | cons length rest ih =>
    obtain ⟨hlength, hrest⟩ := List.forall_mem_cons.1 hbound
    rw [List.sum_cons] at hday
    rw [monthDay]
    split
    · next hlt => exact (Nat.succ_le_of_lt hlt).trans hlength
    · exact ih (by omega) hrest

/-- An earlier day has an earlier month, or it is an earlier day of the same month. -/
theorem monthDay_lt_or {d e : Nat} (h : d < e) (month : Nat) (lengths : List Nat) :
    (monthDay month d lengths).1 < (monthDay month e lengths).1 ∨
      (monthDay month d lengths).1 = (monthDay month e lengths).1 ∧
        (monthDay month d lengths).2 < (monthDay month e lengths).2 := by
  induction lengths generalizing month d e with
  | nil => exact .inr ⟨rfl, Nat.succ_lt_succ h⟩
  | cons length rest ih =>
    rw [monthDay, monthDay]
    by_cases hd : d < length
    · rw [if_pos hd]
      by_cases he : e < length
      · rw [if_pos he]
        exact .inr ⟨rfl, Nat.succ_lt_succ h⟩
      · rw [if_neg he]
        exact .inl (le_monthDay (month + 1) (e - length) rest)
    · rw [if_neg hd, if_neg (by omega)]
      exact ih (by omega) (month + 1)

/-! ## Dates -/

/-- The month and the day of the month, both from one, of a day. -/
def monthDayOf (d : Int) : Nat × Nat := monthDay 1 (dayOfYear d) (monthLengths (isLeapYear (yearOfDay d)))

/-- The year, the month and the day of the month of a day. -/
def dateParts (d : Int) : List Nat := [(yearOfDay d).natAbs, (monthDayOf d).1, (monthDayOf d).2]

/-- The months of a year are numbered to twelve, and their days to 31. -/
theorem monthDayOf_le (d : Int) : (monthDayOf d).1 ≤ 12 ∧ (monthDayOf d).2 ≤ 31 := by
  have hbound : ∀ leap, ∀ length ∈ monthLengths leap, length ≤ 31 := by decide
  exact ⟨Nat.le_of_lt_succ (monthDay_lt (dayOfYear_lt d)), monthDay_day_le (dayOfYear_lt d) (hbound _)⟩

/-- An earlier day has the earlier date, from year 0 on. -/
theorem dateParts_lt {d e : Int} (hyear : 0 ≤ yearOfDay d) (h : d < e) : dateParts d < dateParts e := by
  simp only [dateParts, List.cons_lt_cons_iff]
  rcases yearOfDay_lt_or h with hlt | ⟨heq, hday⟩
  · exact .inl (by omega)
  · have hmonth := monthDay_lt_or hday 1 (monthLengths (isLeapYear (yearOfDay d)))
    have hnext : monthDayOf e = monthDay 1 (dayOfYear e) (monthLengths (isLeapYear (yearOfDay d))) := by rw [monthDayOf, heq]
    rw [hnext]
    refine .inr ⟨congrArg _ heq, ?_⟩
    rcases hmonth with hmonth | ⟨hmonth, hday⟩
    · exact .inl hmonth
    · exact .inr ⟨hmonth, .inl hday⟩

end DocQuery.Instant
