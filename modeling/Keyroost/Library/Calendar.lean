import Mathlib.Algebra.BigOperators.Intervals
import Mathlib.Algebra.Order.BigOperators.Group.Finset
import Mathlib.Order.SuccPred.Basic
import Mathlib.Tactic.Ring

/-!
# The Gregorian calendar

Dates of the proleptic Gregorian calendar, their numbers counted month by month from the first of
January 1970, and steps of whole months and years.

Nothing here is a formula with magic constants. The length of a month is said as a calendar says
it and a day's number is the sum of the months before it. Every number is that of exactly one date,
which `Date.ofDay` picks (`Date.ofDay_dayNumber`). A step of months that would leave the month
ends on its last day. An implementation with closed formulas is compared with these definitions.
-/

namespace Calendar

open Finset

def isLeap (year : Int) : Prop := year % 4 = 0 ∧ (year % 100 ≠ 0 ∨ year % 400 = 0)

instance (year : Int) : Decidable (isLeap year) := inferInstanceAs (Decidable (_ ∧ _))

def monthLength (year month : Int) : Int :=
  if month = 2 then (if isLeap year then 29 else 28)
  else if month = 4 ∨ month = 6 ∨ month = 9 ∨ month = 11 then 30
  else 31

theorem monthLength_bounds (year month : Int) :
    28 ≤ monthLength year month ∧ monthLength year month ≤ 31 := by
  rw [monthLength]
  split
  · split <;> decide
  · split <;> decide

@[ext] structure Date where
  year : Int
  month : Int
  day : Int
  month_pos : 1 ≤ month
  month_le : month ≤ 12
  day_pos : 1 ≤ day
  day_le : day ≤ monthLength year month
deriving DecidableEq

/-! ### Months in a row -/

/-- The months numbered through, from January of the year 0. -/
def Date.index (d : Date) : Int := 12 * d.year + (d.month - 1)

def lengthAt (k : Int) : Int := monthLength (k / 12) (k % 12 + 1)

theorem Date.index_div (d : Date) : d.index / 12 = d.year ∧ d.index % 12 + 1 = d.month := by
  have hpos := d.month_pos
  have hle := d.month_le
  rw [Date.index]
  omega

theorem Date.lengthAt_index (d : Date) : lengthAt d.index = monthLength d.year d.month := by
  rw [lengthAt, d.index_div.1, d.index_div.2]

/-- A day of the month with this number. -/
def Date.ofIndex (k day : Int) (hpos : 1 ≤ day) (hle : day ≤ lengthAt k) : Date where
  year := k / 12
  month := k % 12 + 1
  day := day
  month_pos := by omega
  month_le := by omega
  day_pos := hpos
  day_le := hle

theorem Date.index_ofIndex {k day : Int} (hpos : 1 ≤ day) (hle : day ≤ lengthAt k) :
    (Date.ofIndex k day hpos hle).index = k := by
  show 12 * (k / 12) + (k % 12 + 1 - 1) = k
  omega

theorem Date.eq_of_index {d e : Date} (hindex : d.index = e.index) (hday : d.day = e.day) :
    d = e := by
  have hd := d.index_div
  have he := e.index_div
  rw [hindex] at hd
  exact Date.ext (hd.1.symm.trans he.1) (hd.2.symm.trans he.2) hday

/-! ### Days in a row -/

def EPOCH : Int := 12 * 1970

/-- The day on which the month with this number begins: the lengths of the months since January
1970 added up, or those of the months up to then taken away. -/
def firstDay (k : Int) : Int :=
  ∑ i ∈ range (k - EPOCH).toNat, lengthAt (EPOCH + i) -
    ∑ i ∈ range (EPOCH - k).toNat, lengthAt (EPOCH - 1 - i)

theorem firstDay_epoch : firstDay EPOCH = 0 := rfl

theorem firstDay_succ (k : Int) : firstDay (k + 1) = firstDay k + lengthAt k := by
  rw [firstDay, firstDay]
  rcases Int.lt_or_le k EPOCH with hlt | hle
  · have hafter : (k - EPOCH).toNat = 0 := by omega
    have hafter' : (k + 1 - EPOCH).toNat = 0 := by omega
    have hbefore : (EPOCH - k).toNat = (EPOCH - (k + 1)).toNat + 1 := by omega
    have hmonth : EPOCH - 1 - ((EPOCH - (k + 1)).toNat : Int) = k := by omega
    rw [hafter, hafter', hbefore, sum_range_succ, hmonth]
    ring
  · have hbefore : (EPOCH - k).toNat = 0 := by omega
    have hbefore' : (EPOCH - (k + 1)).toNat = 0 := by omega
    have hafter : (k + 1 - EPOCH).toNat = (k - EPOCH).toNat + 1 := by omega
    have hmonth : EPOCH + ((k - EPOCH).toNat : Int) = k := by omega
    rw [hbefore, hbefore', hafter, sum_range_succ, hmonth]
    ring

theorem firstDay_lt_succ (k : Int) : firstDay k < firstDay (k + 1) := by
  have hlength := (monthLength_bounds (k / 12) (k % 12 + 1)).1
  rw [firstDay_succ, lengthAt]
  omega

theorem firstDay_mono {j k : Int} (h : j ≤ k) : firstDay j ≤ firstDay k :=
  (strictMono_int_of_lt_succ firstDay_lt_succ).monotone h

/-- The beginnings of the months are the only numbers that begin with 0 and go on by the months'
lengths. -/
theorem eq_firstDay {f : Int → Int} (hzero : f EPOCH = 0)
    (hsucc : ∀ k, f (k + 1) = f k + lengthAt k) (k : Int) : f k = firstDay k := by
  refine Int.inductionOn' k EPOCH hzero (fun k _ ih => ?_) (fun k _ ih => ?_)
  · rw [hsucc, firstDay_succ, ih]
  · have hf := hsucc (k - 1)
    have hday := firstDay_succ (k - 1)
    rw [Int.sub_add_cancel] at hf hday
    omega

/-- The number of days from the first of January 1970. -/
def Date.dayNumber (d : Date) : Int := firstDay d.index + (d.day - 1)

theorem Date.dayNumber_bounds (d : Date) :
    firstDay d.index ≤ d.dayNumber ∧ d.dayNumber < firstDay (d.index + 1) := by
  have hpos := d.day_pos
  have hle := d.day_le
  rw [firstDay_succ, d.lengthAt_index, Date.dayNumber]
  omega

/-- A date of an earlier month has a smaller number. -/
theorem Date.dayNumber_lt {d e : Date} (h : d.index < e.index) : d.dayNumber < e.dayNumber :=
  calc d.dayNumber < firstDay (d.index + 1) := d.dayNumber_bounds.2
    _ ≤ firstDay e.index := firstDay_mono h
    _ ≤ e.dayNumber := e.dayNumber_bounds.1

theorem Date.dayNumber_inj {d e : Date} (h : d.dayNumber = e.dayNumber) : d = e := by
  have hindex : d.index = e.index := by
    rcases lt_trichotomy d.index e.index with hlt | heq | hgt
    · exact absurd h (Date.dayNumber_lt hlt).ne
    · exact heq
    · exact absurd h (Date.dayNumber_lt hgt).ne'
  refine Date.eq_of_index hindex ?_
  rw [Date.dayNumber, Date.dayNumber, hindex] at h
  omega

/-- The dates up to the end of a month. -/
theorem Date.dayNumber_lt_firstDay {d : Date} {k : Int} :
    d.dayNumber < firstDay k ↔ d.index < k := by
  constructor
  · intro h
    by_contra hle
    have hmono := firstDay_mono (not_lt.mp hle)
    exact absurd (hmono.trans d.dayNumber_bounds.1) (not_le.mpr h)
  · intro h
    exact lt_of_lt_of_le d.dayNumber_bounds.2 (firstDay_mono h)

theorem exists_date (z : Int) : ∃ d : Date, d.dayNumber = z := by
  refine Int.inductionOn' z 0 ?_ (fun z _ ih => ?_) (fun z _ ih => ?_)
  · exact ⟨⟨1970, 1, 1, by decide, by decide, by decide, by decide⟩, rfl⟩
  · obtain ⟨d, hd⟩ := ih
    rw [Date.dayNumber] at hd
    by_cases hmore : d.day + 1 ≤ lengthAt d.index
    · refine ⟨.ofIndex d.index (d.day + 1) (by have := d.day_pos; omega) hmore, ?_⟩
      rw [Date.dayNumber, Date.index_ofIndex]
      show firstDay d.index + (d.day + 1 - 1) = z + 1
      omega
    · have hlength := (monthLength_bounds ((d.index + 1) / 12) ((d.index + 1) % 12 + 1)).1
      have hlast : d.day = lengthAt d.index := by
        have hle := d.day_le
        rw [← d.lengthAt_index] at hle
        omega
      refine ⟨.ofIndex (d.index + 1) 1 (by decide) (by rw [lengthAt]; omega), ?_⟩
      rw [Date.dayNumber, Date.index_ofIndex, firstDay_succ]
      show firstDay d.index + lengthAt d.index + (1 - 1) = z + 1
      omega
  · obtain ⟨d, hd⟩ := ih
    rw [Date.dayNumber] at hd
    have hle := d.day_le
    rw [← d.lengthAt_index] at hle
    by_cases hmore : 1 ≤ d.day - 1
    · refine ⟨.ofIndex d.index (d.day - 1) hmore (by omega), ?_⟩
      rw [Date.dayNumber, Date.index_ofIndex]
      show firstDay d.index + (d.day - 1 - 1) = z - 1
      omega
    · have hlength := (monthLength_bounds ((d.index - 1) / 12) ((d.index - 1) % 12 + 1)).1
      have hpos := d.day_pos
      have hday := firstDay_succ (d.index - 1)
      rw [Int.sub_add_cancel] at hday
      refine ⟨.ofIndex (d.index - 1) (lengthAt (d.index - 1)) (by rw [lengthAt]; omega) le_rfl, ?_⟩
      rw [Date.dayNumber, Date.index_ofIndex]
      show firstDay (d.index - 1) + (lengthAt (d.index - 1) - 1) = z - 1
      omega

/-- The date with a number. -/
noncomputable def Date.ofDay (z : Int) : Date := (exists_date z).choose

@[simp] theorem Date.dayNumber_ofDay (z : Int) : (Date.ofDay z).dayNumber = z :=
  (exists_date z).choose_spec

theorem Date.ofDay_dayNumber (d : Date) : Date.ofDay d.dayNumber = d :=
  Date.dayNumber_inj (Date.dayNumber_ofDay _)

/-! ### Whole months and years -/

/-- So many months later, on the same day or the last day of a shorter month. -/
def Date.addMonths (n : Int) (d : Date) : Date :=
  .ofIndex (d.index + n) (min d.day (lengthAt (d.index + n)))
    (le_min d.day_pos ((by decide : (1 : Int) ≤ 28).trans (monthLength_bounds _ _).1))
    (min_le_right _ _)

/-- So many years later, on the same day or the last day of a shorter February. -/
def Date.addYears (n : Int) (d : Date) : Date where
  year := d.year + n
  month := d.month
  day := min d.day (monthLength (d.year + n) d.month)
  month_pos := d.month_pos
  month_le := d.month_le
  day_pos := le_min d.day_pos ((by decide : (1 : Int) ≤ 28).trans (monthLength_bounds _ _).1)
  day_le := min_le_right _ _

theorem Date.index_addMonths (n : Int) (d : Date) : (d.addMonths n).index = d.index + n :=
  Date.index_ofIndex _ _

theorem Date.index_addYears (n : Int) (d : Date) : (d.addYears n).index = d.index + 12 * n := by
  show 12 * (d.year + n) + (d.month - 1) = 12 * d.year + (d.month - 1) + 12 * n
  ring

theorem Date.addMonths_zero (d : Date) : d.addMonths 0 = d := by
  refine Date.eq_of_index ((d.index_addMonths 0).trans (Int.add_zero _)) ?_
  show min d.day (lengthAt (d.index + 0)) = d.day
  rw [Int.add_zero, d.lengthAt_index]
  exact min_eq_left d.day_le

theorem Date.addYears_zero (d : Date) : d.addYears 0 = d := by
  refine Date.eq_of_index ((d.index_addYears 0).trans (Int.add_zero _)) ?_
  show min d.day (monthLength (d.year + 0) d.month) = d.day
  rw [Int.add_zero]
  exact min_eq_left d.day_le

end Calendar
