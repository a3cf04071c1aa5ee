import Keyroost.Library.Calendar
import Keyroost.Piv.X509
import Mathlib.Tactic.IntervalCases
import Mathlib.Tactic.NormNum

/-!
# Validity periods

Years, months and days from now, up to the last second of the year 9999, and the calendar's days as
`keyroost-piv/src/lib.rs` counts them.

The code counts with closed formulas over eras of 400 years that begin in March. They are compared
with the library's calendar, which counts month by month: `daysFromCivil_date` by steps of a month
and a year, `civilFromDays_date` by the bounds of a year in its era. With that, each function of the
code is a step of the calendar (`addCalendarYears_eq`, `addCalendarMonths_eq`), and `periodEnd` is
the reference that a whole period is compared with. `period_eq_iff` says when the two are the same,
and `validity_period` adds the limits on the counts.
-/

namespace Keyroost.Piv

open Calendar

/-! ### The code -/

def civilFromDays (z : Int) : Int × Int × Int :=
  let z := z + 719468
  let era := (if 0 ≤ z then z else z - 146096).tdiv 146097
  let doe := z - era * 146097
  let yoe := (doe - doe / 1460 + doe / 36524 - doe / 146096) / 365
  let y := yoe + era * 400
  let doy := doe - (365 * yoe + yoe / 4 - yoe / 100)
  let mp := (5 * doy + 2) / 153
  let d := doy - (153 * mp + 2) / 5 + 1
  let m := if mp < 10 then mp + 3 else mp - 9
  (if m ≤ 2 then y + 1 else y, m, d)

def isLeapYear (y : Int) : Bool :=
  decide (y % 4 = 0) && (decide (y % 100 ≠ 0) || decide (y % 400 = 0))

/-- No other month than 1 to 12 comes up. -/
def daysInMonth (y m : Int) : Int :=
  if m = 1 ∨ m = 3 ∨ m = 5 ∨ m = 7 ∨ m = 8 ∨ m = 10 ∨ m = 12 then 31
  else if m = 4 ∨ m = 6 ∨ m = 9 ∨ m = 11 then 30
  else if isLeapYear y then 29 else 28

/-- `clamp(0, i64::from(u32::MAX)) as u32`. -/
def clampU32 (n : Int) : Nat := min n.toNat (2 ^ 32 - 1)

def maxValidDays (nowUnixSecs : Int) : Nat :=
  clampU32 (daysFromCivil MAX_EXPIRATION_YEAR 12 31 - nowUnixSecs / 86400)

def maxValidYears (nowUnixSecs : Int) : Nat :=
  let (y, _, _) := civilFromDays (nowUnixSecs / 86400)
  clampU32 (MAX_EXPIRATION_YEAR - y)

def maxValidMonths (nowUnixSecs : Int) : Nat :=
  let (y, m, _) := civilFromDays (nowUnixSecs / 86400)
  clampU32 ((MAX_EXPIRATION_YEAR - y) * 12 + (12 - m))

/-- The end of both calendar steps. A day that is the last one of all counts as past it. -/
def upToLastDay (newDays timeOfDay : Int) : Int :=
  let maxDays := daysFromCivil MAX_EXPIRATION_YEAR 12 31
  if maxDays ≤ newDays then maxDays * 86400 + 86399 else newDays * 86400 + timeOfDay

def addCalendarYears (nowUnixSecs : Int) (years : Nat) : Int :=
  let days := nowUnixSecs / 86400
  let timeOfDay := nowUnixSecs % 86400
  let (y, m, d) := civilFromDays days
  let targetYear := y + years
  let d := if m = 2 ∧ d = 29 ∧ ¬ isLeapYear targetYear then 28 else d
  upToLastDay (daysFromCivil targetYear m d) timeOfDay

def addCalendarMonths (nowUnixSecs : Int) (months : Nat) : Int :=
  let days := nowUnixSecs / 86400
  let timeOfDay := nowUnixSecs % 86400
  let (y, m, d) := civilFromDays days
  let totalMonths := (m - 1) + months
  let targetYear := y + totalMonths / 12
  let targetMonth := totalMonths % 12 + 1
  let d := min d (daysInMonth targetYear targetMonth)
  upToLastDay (daysFromCivil targetYear targetMonth d) timeOfDay

def addCalendarPeriod (nowUnixSecs : Int) (years months days : Nat) : Int :=
  let afterYears := if 0 < years then addCalendarYears nowUnixSecs years else nowUnixSecs
  let afterMonths := if 0 < months then addCalendarMonths afterYears months else afterYears
  min (afterMonths + days * 86400) maxExpirationUnixSecs

/-! ### Days counted from dates -/

theorem isLeapYear_iff (y : Int) : isLeapYear y = true ↔ isLeap y := by
  rw [isLeapYear, isLeap, Bool.and_eq_true, Bool.or_eq_true, decide_eq_true_eq, decide_eq_true_eq,
    decide_eq_true_eq]

theorem daysInMonth_eq (y : Int) {m : Int} (hpos : 1 ≤ m) (hle : m ≤ 12) :
    daysInMonth y m = monthLength y m := by
  rw [daysInMonth, monthLength]
  by_cases hfebruary : m = 2
  · rw [if_neg (by omega), if_neg (by omega), if_pos hfebruary]
    exact if_congr (isLeapYear_iff y) rfl rfl
  · rw [if_neg hfebruary]
    by_cases hshort : m = 4 ∨ m = 6 ∨ m = 9 ∨ m = 11
    · rw [if_neg (by omega), if_pos hshort, if_pos hshort]
    · rw [if_pos (by omega), if_neg hshort]

/-- Years that begin in March, numbered through in days. -/
def yearStart (k : Int) : Int := 365 * k + k / 4 - k / 100 + k / 400

theorem yearStart_succ (k : Int) :
    yearStart (k + 1) = yearStart k + if isLeap (k + 1) then 366 else 365 := by
  rw [yearStart, yearStart]
  split
  · rename_i hleap
    obtain ⟨h4, h100 | h400⟩ := hleap
    · omega
    · omega
  · rename_i hleap
    rw [isLeap, not_and_or, not_or, not_not] at hleap
    rcases hleap with h4 | ⟨h100, h400⟩
    · omega
    · omega

/-- A division that truncates, of a number shifted where it is negative, rounds down. -/
theorem tdiv_shifted {m n : Int} (hn : n = m + 1) (hpos : 0 < n) (y : Int) :
    (if 0 ≤ y then y else y - m).tdiv n = y / n := by
  split
  · exact Int.tdiv_eq_ediv_of_nonneg ‹_›
  · have hlow := Int.emod_nonneg y hpos.ne'
    have hhigh := Int.emod_lt_of_pos y hpos
    have hdivision : m - y % n + n * -(y / n) = m - y := by
      have hparts := Int.emod_add_mul_ediv y n
      linarith
    have hquotient : (m - y) / n = -(y / n) :=
      ((Int.ediv_emod_unique hpos).mpr ⟨hdivision, by omega, by omega⟩).1
    have hneg : y - m = -(m - y) := by ring
    rw [hneg, Int.neg_tdiv, Int.tdiv_eq_ediv_of_nonneg (by omega), hquotient, neg_neg]

theorem daysFromCivil_eq {y m d : Int} (hpos : 1 ≤ m) :
    daysFromCivil y m d = yearStart (if m ≤ 2 then y - 1 else y) +
      (153 * (m + if 2 < m then -3 else 9) + 2) / 5 + d - 1 - 719468 := by
  have hera : ∀ y : Int, (if 0 ≤ y then y else y - 399).tdiv 400 = y / 400 :=
    tdiv_shifted rfl (by decide)
  have hmonth : (0 : Int) ≤ 153 * (m + if 2 < m then -3 else 9) + 2 := by
    split <;> omega
  rw [daysFromCivil, hera, Int.tdiv_eq_ediv_of_nonneg hmonth, yearStart]
  generalize (if m ≤ 2 then y - 1 else y) = y'
  omega

theorem daysFromCivil_month (y : Int) {m : Int} (hpos : 1 ≤ m) (hle : m ≤ 11) :
    daysFromCivil y (m + 1) 1 = daysFromCivil y m 1 + monthLength y m := by
  rw [daysFromCivil_eq (by omega), daysFromCivil_eq hpos, monthLength]
  by_cases hfebruary : m = 2
  · have hyear := yearStart_succ (y - 1)
    rw [Int.sub_add_cancel] at hyear
    subst hfebruary
    rw [if_neg (by decide), if_pos (by decide), if_pos (by decide), if_neg (by decide),
      if_pos rfl, hyear]
    split <;> omega
  · rw [if_neg hfebruary]
    rcases Int.lt_or_le m 2 with hjanuary | hmore
    · obtain rfl : m = 1 := by omega
      rw [if_pos (by decide), if_neg (by decide), if_pos (by decide), if_neg (by decide),
        if_neg (by decide)]
      omega
    · rw [if_neg (by omega), if_pos (by omega), if_neg (by omega), if_pos (by omega)]
      have hthree : 3 ≤ m := by omega
      interval_cases m
      all_goals
        norm_num
        try omega

theorem daysFromCivil_year (y : Int) :
    daysFromCivil (y + 1) 1 1 = daysFromCivil y 12 1 + monthLength y 12 := by
  have hyear : y + 1 - 1 = y := by omega
  rw [daysFromCivil_eq (by decide), daysFromCivil_eq (by decide), monthLength,
    if_pos (by decide), if_neg (by decide), if_neg (by decide), if_pos (by decide),
    if_neg (by decide), if_neg (by decide), hyear]
  omega

theorem daysFromCivil_succ (k : Int) :
    daysFromCivil ((k + 1) / 12) ((k + 1) % 12 + 1) 1 =
      daysFromCivil (k / 12) (k % 12 + 1) 1 + lengthAt k := by
  rw [lengthAt]
  by_cases hlast : k % 12 = 11
  · have hyear : (k + 1) / 12 = k / 12 + 1 := by omega
    have hmonth : (k + 1) % 12 = 0 := by omega
    rw [hyear, hmonth, hlast]
    exact daysFromCivil_year (k / 12)
  · have hyear : (k + 1) / 12 = k / 12 := by omega
    have hmonth : (k + 1) % 12 = k % 12 + 1 := by omega
    rw [hyear, hmonth]
    exact daysFromCivil_month (k / 12) (by omega) (by omega)

/-- **The code's day numbers** are the calendar's. -/
theorem daysFromCivil_date (d : Date) : daysFromCivil d.year d.month d.day = d.dayNumber := by
  have hfirst : daysFromCivil (d.index / 12) (d.index % 12 + 1) 1 = firstDay d.index :=
    eq_firstDay (f := fun k => daysFromCivil (k / 12) (k % 12 + 1) 1) (by decide)
      daysFromCivil_succ d.index
  rw [d.index_div.1, d.index_div.2, daysFromCivil_eq d.month_pos] at hfirst
  rw [daysFromCivil_eq d.month_pos, Date.dayNumber, ← hfirst]
  ring

/-! ### Dates counted from days -/

def yearOfEra (doe : Int) : Int := (doe - doe / 1460 + doe / 36524 - doe / 146096) / 365

theorem yearOfEra_table : ∀ k : Fin 400, yearOfEra (yearStart (k.val : Int)) = k.val ∧
    yearOfEra (yearStart ((k.val : Int) + 1) - 1) = k.val := by
  decide +kernel

theorem yearOfEra_mono {doe doe' : Int} (h : doe ≤ doe') : yearOfEra doe ≤ yearOfEra doe' := by
  have hyears : doe - doe / 1460 ≤ doe' - doe' / 1460 := by omega
  have hcenturies : doe / 36524 ≤ doe' / 36524 := Int.ediv_le_ediv (by decide) h
  have hera : ∀ n : Int, n / 146096 = n / 36524 / 4 := by
    intro n
    rw [Int.ediv_ediv_of_nonneg (by decide)]
    rfl
  have hrest : doe / 36524 - doe / 36524 / 4 ≤ doe' / 36524 - doe' / 36524 / 4 := by omega
  rw [yearOfEra, yearOfEra, hera, hera]
  exact Int.ediv_le_ediv (by decide) (by omega)

/-- Every day of a year gives the year back: the first and the last do. -/
theorem yearOfEra_eq {k doe : Int} (hpos : 0 ≤ k) (hlt : k < 400) (hfirst : yearStart k ≤ doe)
    (hlast : doe < yearStart (k + 1)) : yearOfEra doe = k := by
  obtain ⟨n, rfl⟩ := Int.eq_ofNat_of_zero_le hpos
  obtain ⟨hlow, hhigh⟩ := yearOfEra_table ⟨n, by omega⟩
  dsimp only at hlow hhigh
  have hle := yearOfEra_mono hfirst
  have hge := yearOfEra_mono (Int.le_sub_one_of_lt hlast)
  exact le_antisymm (hge.trans hhigh.le) (hlow.symm.le.trans hle)

theorem yearStart_era (e r : Int) : yearStart (400 * e + r) = 146097 * e + yearStart r := by
  have h4 : (400 * e + r) / 4 = 100 * e + r / 4 := by omega
  have h100 : (400 * e + r) / 100 = 4 * e + r / 100 := by omega
  have h400 : (400 * e + r) / 400 = e + r / 400 := by omega
  rw [yearStart, yearStart, h4, h100, h400]
  ring

theorem yearStart_bounds {r : Int} (hpos : 0 ≤ r) (hlt : r < 400) :
    0 ≤ yearStart r ∧ yearStart (r + 1) ≤ 146097 := by
  have htable : ∀ k : Fin 400, 0 ≤ yearStart (k.val : Int) ∧
      yearStart ((k.val : Int) + 1) ≤ 146097 := by decide +kernel
  obtain ⟨n, rfl⟩ := Int.eq_ofNat_of_zero_le hpos
  exact htable ⟨n, by omega⟩

/-- Days split into a year that begins in March and the days of that year. -/
theorem civilFromDays_eq {e r z : Int} (doy : Int)
    (hz : z + 719468 = 146097 * e + (yearStart r + doy)) (hr : 0 ≤ r) (hlt : r < 400) (hpos : 0 ≤ doy) (hdoy : yearStart r + doy < yearStart (r + 1)) :
    civilFromDays z =
      let mp := (5 * doy + 2) / 153
      let m := if mp < 10 then mp + 3 else mp - 9
      (if m ≤ 2 then r + e * 400 + 1 else r + e * 400, m, doy - (153 * mp + 2) / 5 + 1) := by
  obtain ⟨hstart, hend⟩ := yearStart_bounds hr hlt
  have hera : (if 0 ≤ z + 719468 then z + 719468 else z + 719468 - 146096).tdiv 146097 = e := by
    refine (tdiv_shifted rfl (by decide) _).trans ?_
    omega
  have hdoe : z + 719468 - e * 146097 = yearStart r + doy := by
    rw [hz]
    ring
  have hyoe : (yearStart r + doy - (yearStart r + doy) / 1460 + (yearStart r + doy) / 36524 -
      (yearStart r + doy) / 146096) / 365 = r :=
    yearOfEra_eq hr hlt (Int.le_add_of_nonneg_right hpos) hdoy
  have hrest : yearStart r + doy - (365 * r + r / 4 - r / 100) = doy := by
    have hzero : r / 400 = 0 := Int.ediv_eq_zero_of_lt hr hlt
    rw [yearStart, hzero]
    ring
  rw [civilFromDays]
  simp only [hera, hdoe, hyoe, hrest]

theorem day_le_of_month (d : Date) : d.day ≤ 31 ∧ (d.month = 2 → d.day ≤ 29) ∧
    (d.month = 4 ∨ d.month = 6 ∨ d.month = 9 ∨ d.month = 11 → d.day ≤ 30) ∧
    (d.month = 2 → ¬ isLeap d.year → d.day ≤ 28) := by
  have hle := d.day_le
  rw [monthLength] at hle
  refine ⟨?_, fun hm => ?_, fun hm => ?_, fun hm hleap => ?_⟩
  · split at hle
    · split at hle <;> omega
    · split at hle <;> omega
  · rw [if_pos hm] at hle
    split at hle <;> omega
  · rwa [if_neg (by omega), if_pos hm] at hle
  · rwa [if_pos hm, if_neg hleap] at hle

/-- **The code's dates** are the calendar's. -/
theorem civilFromDays_date (d : Date) : civilFromDays d.dayNumber = (d.year, d.month, d.day) := by
  obtain ⟨hday, hfebruary, hshort, hplain⟩ := day_le_of_month d
  have hpos := d.day_pos
  have hm := d.month_pos
  have hm' := d.month_le
  have hdays := daysFromCivil_date d
  rw [daysFromCivil_eq hm] at hdays
  obtain ⟨y, hy⟩ : ∃ y, y = if d.month ≤ 2 then d.year - 1 else d.year := ⟨_, rfl⟩
  obtain ⟨mp, hmp⟩ : ∃ mp, mp = d.month + if 2 < d.month then -3 else 9 := ⟨_, rfl⟩
  rw [← hy, ← hmp] at hdays
  have hmonths : 0 ≤ mp ∧ mp ≤ 11 := by
    rw [hmp]
    split <;> omega
  have hera : yearStart y = 146097 * (y / 400) + yearStart (y % 400) := by
    rw [← yearStart_era, Int.mul_ediv_add_emod]
  have hnext : yearStart (y + 1) = 146097 * (y / 400) + yearStart (y % 400 + 1) := by
    rw [← yearStart_era, ← Int.add_assoc, Int.mul_ediv_add_emod]
  have hroom : (153 * mp + 2) / 5 + d.day - 1 < yearStart (y + 1) - yearStart y := by
    rw [yearStart_succ]
    by_cases hlast : mp = 11
    · have hmonth : d.month = 2 := by
        rw [hmp] at hlast
        split at hlast <;> omega
      have hyear : y + 1 = d.year := by
        rw [hy, if_pos hmonth.le]
        omega
      have hlong := hfebruary hmonth
      rw [hyear, hlast]
      split
      · omega
      · have hless := hplain hmonth ‹_›
        omega
    · split <;> omega
  have hsplit := civilFromDays_eq (e := y / 400) (r := y % 400) (z := d.dayNumber)
    ((153 * mp + 2) / 5 + d.day - 1) (by omega) (by omega) (by omega) (by omega) (by omega)
  have hback : (5 * ((153 * mp + 2) / 5 + d.day - 1) + 2) / 153 = mp := by
    have hlength : mp = 11 → d.day ≤ 29 := by
      intro hlast
      refine hfebruary ?_
      rw [hmp] at hlast
      split at hlast <;> omega
    have hthirty : mp = 1 ∨ mp = 3 ∨ mp = 6 ∨ mp = 8 → d.day ≤ 30 := by
      intro hcase
      refine hshort ?_
      rw [hmp] at hcase
      split at hcase <;> omega
    obtain ⟨hlow, hhigh⟩ := hmonths
    clear hsplit hroom hnext hera hdays hy hmp
    interval_cases mp <;> omega
  rw [hsplit]
  dsimp only
  rw [hback]
  have hmonth : (if mp < 10 then mp + 3 else mp - 9) = d.month := by
    rw [hmp]
    split <;> split <;> omega
  have hyears : y % 400 + y / 400 * 400 = y := by omega
  rw [hmonth, hyears]
  have hyear : (if d.month ≤ 2 then y + 1 else y) = d.year := by
    rw [hy]
    split <;> omega
  rw [hyear]
  refine Prod.ext rfl (Prod.ext rfl ?_)
  dsimp only
  omega

theorem civilFromDays_ofDay (z : Int) :
    civilFromDays z = ((Date.ofDay z).year, (Date.ofDay z).month, (Date.ofDay z).day) := by
  have h := civilFromDays_date (Date.ofDay z)
  rwa [Date.dayNumber_ofDay] at h

/-- The other reading of an instant: the same date, and the time of the day. -/
theorem civilFromUnix_eq (unixSecs : Int) :
    let (y, m, d) := civilFromDays (unixSecs / 86400)
    civilFromUnix unixSecs = ⟨y, m, d, unixSecs % 86400 / 3600, unixSecs % 86400 % 3600 / 60,
      unixSecs % 86400 % 60⟩ := by
  have hera : ∀ z : Int, (if 0 ≤ z then z else z - 146096).tdiv 146097 = z / 146097 :=
    tdiv_shifted rfl (by decide)
  have hdoe : ∀ z : Int, z - z / 146097 * 146097 = z % 146097 := by
    intro z
    omega
  simp only [civilFromDays, civilFromUnix, hera, hdoe]

/-! ### Steps of the calendar -/

/-- An instant at a time of the day. -/
def instant (d : Date) (timeOfDay : Int) : Int := d.dayNumber * 86400 + timeOfDay

def lastDate : Date := ⟨9999, 12, 31, by decide, by decide, by decide, by decide⟩

theorem dayNumber_lastDate : lastDate.dayNumber = daysFromCivil MAX_EXPIRATION_YEAR 12 31 :=
  (daysFromCivil_date lastDate).symm

theorem le_lastDate {d : Date} : d.dayNumber ≤ lastDate.dayNumber ↔ d.index < 120000 := by
  have hnext : firstDay 120000 = lastDate.dayNumber + 1 := by
    have hsucc := firstDay_succ lastDate.index
    rw [lastDate.lengthAt_index] at hsucc
    rw [Date.dayNumber]
    have hlength : monthLength lastDate.year lastDate.month = 31 := by decide
    have hindex : lastDate.index + 1 = 120000 := by decide
    have hday : lastDate.day = 31 := rfl
    rw [hlength, hindex] at hsucc
    rw [hsucc, hday]
    ring
  rw [← Date.dayNumber_lt_firstDay, hnext]
  omega

theorem addCalendarYears_eq (now : Int) (n : Nat) :
    addCalendarYears now n =
      upToLastDay ((Date.ofDay (now / 86400)).addYears n).dayNumber (now % 86400) := by
  rw [addCalendarYears, civilFromDays_ofDay]
  generalize Date.ofDay (now / 86400) = d
  dsimp only
  have hday : (if d.month = 2 ∧ d.day = 29 ∧ ¬ isLeapYear (d.year + n) = true then 28 else d.day) =
      min d.day (monthLength (d.year + n) d.month) := by
    obtain ⟨hle, hfebruary, hshort, -⟩ := day_le_of_month d
    simp only [isLeapYear_iff, monthLength]
    by_cases hm : d.month = 2
    · have hlong := hfebruary hm
      rw [if_pos hm]
      by_cases hleap : isLeap (d.year + n)
      · rw [if_neg (fun h => h.2.2 hleap), if_pos hleap, min_eq_left hlong]
      · rw [if_neg hleap]
        by_cases hlast : d.day = 29
        · rw [if_pos ⟨hm, hlast, hleap⟩, hlast]
          rfl
        · rw [if_neg (fun h => hlast h.2.1), min_eq_left (by omega)]
    · rw [if_neg (fun h => hm h.1), if_neg hm]
      split
      · exact (min_eq_left (hshort ‹_›)).symm
      · exact (min_eq_left hle).symm
  rw [hday]
  exact congrArg (upToLastDay · _) (daysFromCivil_date (d.addYears n))

theorem addCalendarMonths_eq (now : Int) (n : Nat) :
    addCalendarMonths now n =
      upToLastDay ((Date.ofDay (now / 86400)).addMonths n).dayNumber (now % 86400) := by
  rw [addCalendarMonths, civilFromDays_ofDay]
  generalize Date.ofDay (now / 86400) = d
  dsimp only
  have hyear : d.year + (d.month - 1 + n) / 12 = (d.index + n) / 12 := by
    rw [Date.index]
    omega
  have hmonth : (d.month - 1 + n) % 12 + 1 = (d.index + n) % 12 + 1 := by
    rw [Date.index]
    omega
  rw [hyear, hmonth, daysInMonth_eq _ (by omega) (by omega)]
  exact congrArg (upToLastDay · _) (daysFromCivil_date (d.addMonths n))

/-! ### The period -/

/-- The date that years and then months lead to, each keeping the day or taking the last day of a
shorter month. -/
noncomputable def steppedDate (now : Int) (years months : Nat) : Date :=
  ((Date.ofDay (now / 86400)).addYears years).addMonths months

/-- Then days, at the same time of the day. -/
noncomputable def openEnd (now : Int) (years months days : Nat) : Int :=
  instant (steppedDate now years months) (now % 86400) + days * 86400

/-- **The reference**: no later than the last second of 9999. -/
noncomputable def periodEnd (now : Int) (years months days : Nat) : Int :=
  min (openEnd now years months days) maxExpirationUnixSecs

theorem maxExpirationUnixSecs_eq : maxExpirationUnixSecs = lastDate.dayNumber * 86400 + 86399 := by
  rw [maxExpirationUnixSecs, dayNumber_lastDate]

theorem upToLastDay_eq (newDays timeOfDay : Int) : upToLastDay newDays timeOfDay =
    if lastDate.dayNumber ≤ newDays then maxExpirationUnixSecs
    else newDays * 86400 + timeOfDay := by
  rw [upToLastDay, maxExpirationUnixSecs, dayNumber_lastDate]

/-- What the two calendar steps give together. -/
theorem afterMonths_eq (now : Int) (years months : Nat) :
    (if 0 < months then addCalendarMonths
        (if 0 < years then addCalendarYears now years else now) months
      else if 0 < years then addCalendarYears now years else now) =
    if (0 < years ∨ 0 < months) ∧ lastDate.dayNumber ≤ (steppedDate now years months).dayNumber
    then maxExpirationUnixSecs else instant (steppedDate now years months) (now % 86400) := by
  have hstart : now = instant (Date.ofDay (now / 86400)) (now % 86400) := by
    rw [instant, Date.dayNumber_ofDay]
    omega
  rw [steppedDate]
  by_cases hmonths : 0 < months
  · rw [if_pos hmonths, addCalendarMonths_eq]
    by_cases hyears : 0 < years
    · have hindex := ((Date.ofDay (now / 86400)).addYears years).index_addMonths months
      rw [if_pos hyears, addCalendarYears_eq, upToLastDay_eq, upToLastDay_eq]
      generalize (Date.ofDay (now / 86400)).addYears years = t at hindex ⊢
      by_cases hlate : lastDate.dayNumber ≤ t.dayNumber
      · have hlastDay : maxExpirationUnixSecs / 86400 = lastDate.dayNumber := by
          rw [maxExpirationUnixSecs_eq]
          omega
        have hafter := lastDate.index_addMonths months
        have hlast : lastDate.index = 119999 := by decide
        have hmonth : 119999 ≤ t.index := by
          by_contra hless
          exact absurd (Date.dayNumber_lt (hlast ▸ not_le.mp hless)) (not_lt.mpr hlate)
        rw [if_pos hlate, hlastDay, Date.ofDay_dayNumber,
          if_pos (le_of_not_ge fun h => absurd (le_lastDate.mp h) (by omega)),
          if_pos ⟨.inl hyears, le_of_not_ge fun h => absurd (le_lastDate.mp h) (by omega)⟩]
      · have hday : (t.dayNumber * 86400 + now % 86400) / 86400 = t.dayNumber := by omega
        have htime : (t.dayNumber * 86400 + now % 86400) % 86400 = now % 86400 := by omega
        rw [if_neg hlate, hday, htime, Date.ofDay_dayNumber]
        refine if_congr ?_ rfl rfl
        exact ⟨fun h => ⟨.inl hyears, h⟩, fun h => h.2⟩
    · obtain rfl : years = 0 := Nat.eq_zero_of_not_pos hyears
      rw [if_neg hyears, upToLastDay_eq, Nat.cast_zero, Date.addYears_zero]
      refine if_congr ?_ rfl rfl
      exact ⟨fun h => ⟨.inr hmonths, h⟩, fun h => h.2⟩
  · obtain rfl : months = 0 := Nat.eq_zero_of_not_pos hmonths
    rw [if_neg hmonths, Nat.cast_zero, Date.addMonths_zero]
    by_cases hyears : 0 < years
    · rw [if_pos hyears, addCalendarYears_eq, upToLastDay_eq]
      refine if_congr ?_ rfl rfl
      exact ⟨fun h => ⟨.inl hyears, h⟩, fun h => h.2⟩
    · obtain rfl : years = 0 := Nat.eq_zero_of_not_pos hyears
      rw [if_neg hyears, Nat.cast_zero, Date.addYears_zero, ← hstart, if_neg]
      rintro ⟨hmoved, -⟩
      rcases hmoved with h | h
      · exact absurd h (Nat.lt_irrefl 0)
      · exact absurd h (Nat.lt_irrefl 0)

/-- **The period**, by the date that years and months lead to: past the last day and on it the last
second, and before it the reference. -/
theorem addCalendarPeriod_eq (now : Int) (years months days : Nat) :
    addCalendarPeriod now years months days =
      if (0 < years ∨ 0 < months) ∧ lastDate.dayNumber ≤ (steppedDate now years months).dayNumber
      then maxExpirationUnixSecs else periodEnd now years months days := by
  rw [addCalendarPeriod, afterMonths_eq]
  split
  · exact min_eq_right (by omega)
  · rfl

/-- Years or months lead to the very last day, no days are added, and it is not its last second. -/
def EndsOnLastDay (now : Int) (years months days : Nat) : Prop :=
  (0 < years ∨ 0 < months) ∧ days = 0 ∧ steppedDate now years months = lastDate ∧
    now % 86400 ≠ 86399

/-- **When the period is the reference**: unless it ends on the last day. -/
theorem period_eq_iff (now : Int) (years months days : Nat) :
    addCalendarPeriod now years months days = periodEnd now years months days ↔
      ¬ EndsOnLastDay now years months days := by
  rw [addCalendarPeriod_eq]
  by_cases hlate : (0 < years ∨ 0 < months) ∧
      lastDate.dayNumber ≤ (steppedDate now years months).dayNumber
  · obtain ⟨hmoved, hle⟩ := hlate
    rw [if_pos ⟨hmoved, hle⟩, eq_comm, periodEnd, min_eq_right_iff, maxExpirationUnixSecs_eq,
      openEnd, instant]
    constructor
    · rintro hmax ⟨-, hdays, hlast, htime⟩
      rw [hlast, hdays] at hmax
      omega
    · intro hnot
      by_contra hless
      have hdays : days = 0 := by omega
      have hday : (steppedDate now years months).dayNumber = lastDate.dayNumber := by omega
      exact hnot ⟨hmoved, hdays, Date.dayNumber_inj hday, by omega⟩
  · rw [if_neg hlate]
    refine ⟨fun _ hends => hlate ⟨hends.1, ?_⟩, fun _ => rfl⟩
    rw [hends.2.2.1]

theorem period_le (now : Int) (years months days : Nat) :
    addCalendarPeriod now years months days ≤ maxExpirationUnixSecs :=
  min_le_right _ _

theorem index_steppedDate (now : Int) (years months : Nat) :
    (steppedDate now years months).index =
      (Date.ofDay (now / 86400)).index + 12 * years + months := by
  rw [steppedDate, Date.index_addMonths, Date.index_addYears]

/-- **More is not earlier.** -/
theorem period_mono (now : Int) {years years' months months' days days' : Nat}
    (hyears : years ≤ years') (hmonths : months ≤ months') (hdays : days ≤ days') :
    addCalendarPeriod now years months days ≤ addCalendarPeriod now years' months' days' := by
  by_cases hsame : years = years' ∧ months = months'
  · obtain ⟨rfl, rfl⟩ := hsame
    rw [addCalendarPeriod_eq, addCalendarPeriod_eq]
    split
    · exact le_rfl
    · rw [periodEnd, periodEnd, openEnd, openEnd]
      omega
  · have hlt : (steppedDate now years months).dayNumber <
        (steppedDate now years' months').dayNumber := by
      refine Date.dayNumber_lt ?_
      rw [index_steppedDate, index_steppedDate]
      omega
    have hmoved : 0 < years' ∨ 0 < months' := by omega
    rw [addCalendarPeriod_eq now years' months' days']
    by_cases hlate : lastDate.dayNumber ≤ (steppedDate now years' months').dayNumber
    · rw [if_pos ⟨hmoved, hlate⟩]
      exact period_le now years months days
    · rw [if_neg fun h => hlate h.2, addCalendarPeriod_eq, if_neg fun h => hlate (h.2.trans hlt.le)]
      rw [periodEnd, periodEnd, openEnd, openEnd, instant, instant]
      omega

/-! ### The limits -/

theorem openEnd_le_iff (now : Int) (years months : Nat) :
    openEnd now years months 0 ≤ maxExpirationUnixSecs ↔
      (Date.ofDay (now / 86400)).index + 12 * years + months < 120000 := by
  rw [← index_steppedDate, ← le_lastDate, openEnd, instant, maxExpirationUnixSecs_eq]
  omega

section Limits

variable {now : Int} (hfirst : 0 ≤ now) (hlast : now ≤ maxExpirationUnixSecs)
include hfirst hlast

theorem index_bounds : EPOCH ≤ (Date.ofDay (now / 86400)).index ∧
    (Date.ofDay (now / 86400)).index < 120000 := by
  have hday := Date.dayNumber_ofDay (now / 86400)
  constructor
  · by_contra hless
    have hlt := Date.dayNumber_lt_firstDay.mpr (not_le.mp hless)
    rw [firstDay_epoch, hday] at hlt
    omega
  · refine le_lastDate.mp ?_
    rw [maxExpirationUnixSecs_eq] at hlast
    rw [hday]
    omega

theorem le_maxValidDays (n : Nat) :
    openEnd now 0 0 n ≤ maxExpirationUnixSecs ↔ n ≤ maxValidDays now := by
  have hday := Date.dayNumber_ofDay (now / 86400)
  have hlimit : lastDate.dayNumber = 2932896 := by
    rw [dayNumber_lastDate]
    decide
  rw [maxExpirationUnixSecs_eq] at hlast ⊢
  rw [openEnd, instant, steppedDate, Nat.cast_zero, Date.addYears_zero, Date.addMonths_zero, hday,
    maxValidDays, clampU32, ← dayNumber_lastDate]
  omega

theorem le_maxValidYears (n : Nat) :
    openEnd now n 0 0 ≤ maxExpirationUnixSecs ↔ n ≤ maxValidYears now := by
  obtain ⟨hlow, hhigh⟩ := index_bounds hfirst hlast
  have hdiv := (Date.ofDay (now / 86400)).index_div
  rw [EPOCH] at hlow
  rw [openEnd_le_iff, maxValidYears, civilFromDays_ofDay]
  dsimp only
  rw [clampU32, MAX_EXPIRATION_YEAR]
  omega

theorem le_maxValidMonths (n : Nat) :
    openEnd now 0 n 0 ≤ maxExpirationUnixSecs ↔ n ≤ maxValidMonths now := by
  obtain ⟨hlow, hhigh⟩ := index_bounds hfirst hlast
  have hdiv := (Date.ofDay (now / 86400)).index_div
  rw [EPOCH] at hlow
  rw [openEnd_le_iff, maxValidMonths, civilFromDays_ofDay]
  dsimp only
  rw [clampU32, MAX_EXPIRATION_YEAR]
  omega

end Limits

/-! ### All of it -/

/-- A reading of an instant that is the calendar's: the date is that of its day, the time of day is
in its bounds, and both together give the instant back. -/
structure ReadsInstant (unixSecs : Int) (t : CivilTime) : Prop where
  date : ∃ d : Date, d.dayNumber = unixSecs / 86400 ∧ t.year = d.year ∧ t.month = d.month ∧
    t.day = d.day
  hour : 0 ≤ t.hour ∧ t.hour < 24
  minute : 0 ≤ t.minute ∧ t.minute < 60
  second : 0 ≤ t.second ∧ t.second < 60
  back : daysFromCivil t.year t.month t.day * 86400 + t.hour * 3600 + t.minute * 60 + t.second =
    unixSecs

theorem civilFromUnix_reads (unixSecs : Int) : ReadsInstant unixSecs (civilFromUnix unixSecs) := by
  have hread := civilFromUnix_eq unixSecs
  rw [civilFromDays_ofDay] at hread
  rw [hread]
  have hdays := daysFromCivil_date (Date.ofDay (unixSecs / 86400))
  rw [Date.dayNumber_ofDay] at hdays
  refine ⟨⟨_, Date.dayNumber_ofDay _, rfl, rfl, rfl⟩, ⟨?_, ?_⟩, ⟨?_, ?_⟩, ⟨?_, ?_⟩, ?_⟩
  all_goals dsimp only
  · omega
  · omega
  · omega
  · omega
  · omega
  · omega
  · rw [hdays]
    omega

/-- **Validity periods follow the calendar**: they are the reference unless they end on the very
last day before its last second, they never pass it and never shrink, the limits are the largest
counts that stay within it, and the code's dates and days are the calendar's. -/
theorem validity_period (now : Int) (years months days : Nat) :
    (addCalendarPeriod now years months days = periodEnd now years months days ↔
      ¬ EndsOnLastDay now years months days) ∧
    addCalendarPeriod now years months days ≤ maxExpirationUnixSecs ∧
    (∀ years' months' days', years ≤ years' → months ≤ months' → days ≤ days' →
      addCalendarPeriod now years months days ≤ addCalendarPeriod now years' months' days') ∧
    (0 ≤ now → now ≤ maxExpirationUnixSecs → ∀ n,
      (openEnd now 0 0 n ≤ maxExpirationUnixSecs ↔ n ≤ maxValidDays now) ∧
      (openEnd now 0 n 0 ≤ maxExpirationUnixSecs ↔ n ≤ maxValidMonths now) ∧
      (openEnd now n 0 0 ≤ maxExpirationUnixSecs ↔ n ≤ maxValidYears now)) ∧
    (∀ d : Date, daysFromCivil d.year d.month d.day = d.dayNumber ∧
      civilFromDays (daysFromCivil d.year d.month d.day) = (d.year, d.month, d.day)) ∧
    (∀ z, ∃ d : Date, d.dayNumber = z ∧ civilFromDays z = (d.year, d.month, d.day)) ∧
    ReadsInstant now (civilFromUnix now) := by
  refine ⟨period_eq_iff now years months days, period_le now years months days,
    fun _ _ _ => period_mono now, ?_, fun d => ?_, fun z => ?_, civilFromUnix_reads now⟩
  · intro hfirst hlast n
    exact ⟨le_maxValidDays hfirst hlast n, le_maxValidMonths hfirst hlast n,
      le_maxValidYears hfirst hlast n⟩
  · refine ⟨daysFromCivil_date d, ?_⟩
    rw [daysFromCivil_date]
    exact civilFromDays_date d
  · exact ⟨.ofDay z, Date.dayNumber_ofDay z, civilFromDays_ofDay z⟩

/-- A year from the last day of 9998: the reference is midnight, the code's answer the last
second. -/
theorem validity_period_last_day :
    addCalendarPeriod 253370678400 1 0 0 = 253402300799 ∧
      periodEnd 253370678400 1 0 0 = 253402214400 := by
  have hstart : Date.ofDay (253370678400 / 86400) =
      ⟨9998, 12, 31, by decide, by decide, by decide, by decide⟩ := by
    refine Date.dayNumber_inj ?_
    rw [Date.dayNumber_ofDay, ← daysFromCivil_date]
    decide
  have hdate : steppedDate 253370678400 1 0 = lastDate := by
    rw [steppedDate, hstart]
    decide
  have hday : lastDate.dayNumber = 2932896 := by
    rw [dayNumber_lastDate]
    decide
  have hmax : maxExpirationUnixSecs = 253402300799 := by
    rw [maxExpirationUnixSecs_eq, hday]
    rfl
  constructor
  · rw [addCalendarPeriod_eq, hdate, if_pos ⟨.inl Nat.one_pos, le_rfl⟩, hmax]
  · rw [periodEnd, openEnd, hdate, instant, hday, hmax]
    decide

end Keyroost.Piv
