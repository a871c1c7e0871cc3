import PageSpec.Dynamic.Calendar
/-!
The calendar: every day has one valid date, and the date gives the day back. A moment is determined by its
date and the numbers that a clock shows.
-/
namespace PageSpec.Dynamic

/-! ## Years of an era -/

/-- The year of an era of 400 years that a day of it belongs to. -/
def yearOfEra (e : Int) : Int := (e - e / 1460 + e / 36524 - e / 146096) / 365

/-- The days of an era before a year of it. -/
def daysBefore (y : Int) : Int := 365 * y + y / 4 - y / 100

/-- A day of an era other than its last, by centuries, cycles of four years and the rest. -/
theorem dayOfEra_split {e : Int} (lower : 0 ≤ e) (upper : e < 146096) :
    ∃ c q s : Int, e = 36524 * c + 1461 * q + s ∧ (0 ≤ c ∧ c ≤ 3) ∧ (0 ≤ q ∧ q ≤ 24) ∧
      (0 ≤ s ∧ s ≤ 1460) ∧ 1461 * q + s < 36524 := by
  refine ⟨e / 36524, e % 36524 / 1461, e % 36524 % 1461, ?_, ?_⟩ <;> omega

theorem yearOfEra_split {c q s : Int} (century : 0 ≤ c ∧ c ≤ 3) (cycle : 0 ≤ q ∧ q ≤ 24)
    (rest : 0 ≤ s ∧ s ≤ 1460) (inside : 1461 * q + s < 36524) :
    yearOfEra (36524 * c + 1461 * q + s) = 100 * c + 4 * q + min (s / 365) 3 := by
  have centuries : (36524 * c + 1461 * q + s) / 36524 = c := by omega
  have last : (36524 * c + 1461 * q + s) / 146096 = 0 := by omega
  have leaps : (36524 * c + 1461 * q + s) / 1460 =
      25 * c + q + (if 1460 ≤ 24 * c + q + s then 1 else 0) := by
    split <;> omega
  unfold yearOfEra
  rw [centuries, last, leaps]
  split <;> omega

/-- The year `y` of an era that begins in March, and the days of it: the leap day is the last of them. -/
structure YearDay (y d : Int) : Prop where
  year : 0 ≤ y ∧ y < 400
  day : 0 ≤ d ∧ d ≤ 365
  leap : d = 365 → (y + 1) % 4 = 0 ∧ ((y + 1) % 100 ≠ 0 ∨ (y + 1) % 400 = 0)

theorem yearDay_of_era {e : Int} (lower : 0 ≤ e) (upper : e < 146097) :
    YearDay (yearOfEra e) (e - daysBefore (yearOfEra e)) := by
  by_cases last : e = 146096
  · subst last
    exact ⟨by decide, by decide, fun _ => by decide⟩
  · obtain ⟨c, q, s, rfl, century, cycle, rest, inside⟩ := dayOfEra_split lower (by omega)
    rw [yearOfEra_split century cycle rest inside]
    have few : 0 ≤ min (s / 365) 3 ∧ min (s / 365) 3 ≤ 3 := by omega
    have left : 0 ≤ s - 365 * min (s / 365) 3 ∧ s - 365 * min (s / 365) 3 ≤ 365 := by omega
    have final : s - 365 * min (s / 365) 3 = 365 → min (s / 365) 3 = 3 ∧ s = 1460 := by omega
    generalize min (s / 365) 3 = k at few left final
    have fours : (100 * c + 4 * q + k) / 4 = 25 * c + q := by omega
    have hundreds : (100 * c + 4 * q + k) / 100 = c := by omega
    unfold daysBefore
    rw [fours, hundreds]
    constructor <;> omega

/-! ## Dates of days -/

namespace Date

/-- The date of a day of a year of an era, both counted from March. -/
def ofMarch (era y d : Int) : Date :=
  let m := (5 * d + 2) / 153
  let month := if m < 10 then m + 3 else m - 9
  ⟨y + era * 400 + (if month ≤ 2 then 1 else 0), month.toNat, (d - (153 * m + 2) / 5 + 1).toNat⟩

theorem ofDay_eq (n : Int) : ∃ era y d, ofDay n = ofMarch era y d ∧ YearDay y d ∧
    n = era * 146097 + daysBefore y + d - 719468 := by
  obtain ⟨e, inEra⟩ : ∃ e, n + 719468 - (n + 719468) / 146097 * 146097 = e := ⟨_, rfl⟩
  refine ⟨(n + 719468) / 146097, yearOfEra e, e - daysBefore (yearOfEra e), ?_, ?_, by omega⟩
  · subst inEra
    rfl
  · exact yearDay_of_era (by omega) (by omega)

variable {era y d : Int}

theorem toDay_ofMarch (inside : YearDay y d) :
    (ofMarch era y d).toDay = era * 146097 + daysBefore y + d - 719468 := by
  obtain ⟨year, day, _⟩ := inside
  have months : 0 ≤ (5 * d + 2) / 153 ∧ (5 * d + 2) / 153 ≤ 11 := by omega
  have start : (153 * ((5 * d + 2) / 153) + 2) / 5 ≤ d := by omega
  unfold ofMarch toDay daysBefore
  dsimp only
  generalize (5 * d + 2) / 153 = m at months start
  by_cases early : m < 10
  · have written : ¬ (m + 3).toNat ≤ 2 := by omega
    have late : 2 < (m + 3).toNat := by omega
    simp only [early, written, late, ↓reduceIte]
    split <;> omega
  · have written : (m - 9).toNat ≤ 2 := by omega
    have late : ¬ 2 < (m - 9).toNat := by omega
    simp only [early, written, late, ↓reduceIte]
    split <;> omega

/-- The number of a day is read back from its date. -/
theorem toDay_ofDay (n : Int) : (ofDay n).toDay = n := by
  obtain ⟨era, y, d, same, inside, numbered⟩ := ofDay_eq n
  rw [same, toDay_ofMarch inside, numbered]

theorem isLeapYear_iff {y : Int} : isLeapYear y = true ↔ y % 4 = 0 ∧ (y % 100 ≠ 0 ∨ y % 400 = 0) := by
  simp [isLeapYear]

theorem ofMarch_month (inside : YearDay y d) :
    1 ≤ (ofMarch era y d).month ∧ (ofMarch era y d).month ≤ 12 := by
  obtain ⟨_, day, _⟩ := inside
  have months : 0 ≤ (5 * d + 2) / 153 ∧ (5 * d + 2) / 153 ≤ 11 := by omega
  unfold ofMarch
  dsimp only
  split <;> omega

theorem ofMarch_day (inside : YearDay y d) :
    1 ≤ (ofMarch era y d).day ∧
      (ofMarch era y d).day ≤ monthLength (ofMarch era y d).year (ofMarch era y d).month := by
  obtain ⟨year, day, leap⟩ := inside
  obtain ⟨m, which⟩ : ∃ m, (5 * d + 2) / 153 = m := ⟨_, rfl⟩
  unfold ofMarch
  rw [which]
  by_cases february : m = 11
  · -- The year of a February is the next one from January, and the bound on `d` is that of its leap day.
    subst february
    by_cases last : d = 365
    · have leapYear : isLeapYear (y + era * 400 + 1) = true := by
        have := leap last
        exact isLeapYear_iff.mpr (by omega)
      simp [monthLength, leapYear]
      omega
    · simp [monthLength]
      split <;> omega
  · have months : m = 0 ∨ m = 1 ∨ m = 2 ∨ m = 3 ∨ m = 4 ∨ m = 5 ∨ m = 6 ∨ m = 7 ∨ m = 8 ∨ m = 9 ∨
        m = 10 := by omega
    rcases months with rfl | rfl | rfl | rfl | rfl | rfl | rfl | rfl | rfl | rfl | rfl <;>
      simp [monthLength] <;> omega

theorem ofMarch_year (inside : YearDay y d) (lower : minDay ≤ era * 146097 + daysBefore y + d - 719468)
    (upper : era * 146097 + daysBefore y + d - 719468 ≤ maxDay) :
    minYear ≤ (ofMarch era y d).year ∧ (ofMarch era y d).year ≤ maxYear := by
  obtain ⟨year, day, _⟩ := inside
  have first : minDay = -96465292 := by decide
  have last : maxDay = 95026236 := by decide
  rw [first] at lower
  rw [last] at upper
  unfold daysBefore at lower upper
  have eras : era ≤ 654 ∨ era = 655 := by omega
  unfold ofMarch minYear maxYear
  dsimp only
  obtain ⟨m, which⟩ : ∃ m, (5 * d + 2) / 153 = m := ⟨_, rfl⟩
  rw [which]
  rcases eras with before | rfl
  · split <;> split <;> omega
  · split <;> split <;> omega

/-- Every day in range has a valid date. -/
theorem valid_ofDay {n : Int} (lower : minDay ≤ n) (upper : n ≤ maxDay) : (ofDay n).valid = true := by
  obtain ⟨era, y, d, same, inside, rfl⟩ := ofDay_eq n
  rw [same]
  obtain ⟨early, late⟩ := ofMarch_year inside lower upper
  obtain ⟨first, last⟩ := @ofMarch_month era y d inside
  obtain ⟨one, length⟩ := @ofMarch_day era y d inside
  simp [valid, early, late, first, last, one, length]

theorem ofDay_month (n : Int) : 1 ≤ (ofDay n).month ∧ (ofDay n).month ≤ 12 := by
  obtain ⟨era, y, d, same, inside, _⟩ := ofDay_eq n
  rw [same]
  exact ofMarch_month inside

theorem ofDay_day (n : Int) : 1 ≤ (ofDay n).day ∧ (ofDay n).day ≤ monthLength (ofDay n).year (ofDay n).month := by
  obtain ⟨era, y, d, same, inside, _⟩ := ofDay_eq n
  rw [same]
  exact ofMarch_day inside

theorem monthLength_le (y : Int) (m : Nat) : monthLength y m ≤ 31 := by
  unfold monthLength
  split
  · split <;> omega
  all_goals omega

end Date

/-! ## Moments -/

namespace Moment

theorem clock_lt (m : Moment) : m.clock < 86400000 := by
  unfold clock perDay
  omega

theorem hour_lt (m : Moment) : m.hour < 24 := by
  have := m.clock_lt
  unfold hour
  omega

theorem millis_eq (m : Moment) : m.millis = m.dayNumber * perDay + m.clock := by
  unfold dayNumber clock perDay
  omega

/-- A moment is determined by its date and the four numbers of a clock. -/
theorem eq_of_parts {m m' : Moment} (date : m.date = m'.date) (hour : m.hour = m'.hour)
    (minute : m.minute = m'.minute) (second : m.second = m'.second) (milli : m.milli = m'.milli) :
    m = m' := by
  have days : m.dayNumber = m'.dayNumber := by
    rw [← Date.toDay_ofDay m.dayNumber, ← Date.toDay_ofDay m'.dayNumber]
    exact congrArg Date.toDay date
  have clocks : m.clock = m'.clock := by
    have := m.clock_lt
    have := m'.clock_lt
    unfold Moment.hour at hour
    unfold Moment.minute at minute
    unfold Moment.second at second
    unfold Moment.milli at milli
    omega
  have same : m.millis = m'.millis := by rw [millis_eq m, millis_eq m', days, clocks]
  cases m
  cases m'
  exact congrArg mk same

theorem inRange_iff {m : Moment} : m.inRange = true ↔ minDay ≤ m.dayNumber ∧ m.dayNumber ≤ maxDay := by
  simp [inRange]

/-- Shifting by nothing. -/
theorem shift?_zero {m : Moment} (inside : m.inRange = true) : m.shift? 0 = some m := by
  unfold shift?
  simp [inside]

theorem shiftMonths?_zero {m : Moment} (inside : m.inRange = true) : m.shiftMonths? 0 = some m := by
  obtain ⟨lower, upper⟩ := inRange_iff.mp inside
  obtain ⟨first, last⟩ := Date.ofDay_month m.dayNumber
  obtain ⟨_, length⟩ := Date.ofDay_day m.dayNumber
  have year : (m.date.year * 12 + ((m.date.month : Int) - 1) + 0) / 12 = m.date.year := by
    unfold date
    omega
  have month : ((m.date.year * 12 + ((m.date.month : Int) - 1) + 0) % 12).toNat + 1 = m.date.month := by
    unfold date
    omega
  have day : min m.date.day (monthLength m.date.year m.date.month) = m.date.day := Nat.min_eq_left length
  have valid : m.date.valid = true := Date.valid_ofDay lower upper
  have number : m.date.toDay = m.dayNumber := Date.toDay_ofDay _
  unfold shiftMonths?
  dsimp only
  rw [year, month, day, if_pos valid, number, ← millis_eq]

end Moment
end PageSpec.Dynamic
