import PageSpec.Proofs.Dynamic.Calendar
/-!
Days in a row. A day of the calendar and its number determine each other, and the numbers count the days: the
next number is that of the day after, over the ends of months and years and over leap days.
-/
namespace PageSpec.Dynamic

/-! ## Numbers of days -/

theorem YearDay.size {y d : Int} (inside : YearDay y d) : 0 ≤ daysBefore y + d ∧ daysBefore y + d < 146097 := by
  obtain ⟨year, day, _⟩ := inside
  unfold daysBefore
  omega

/-- The years of an era do not overlap. -/
theorem YearDay.year_le {y d y' d' : Int} (inside : YearDay y d) (inside' : YearDay y' d')
    (same : daysBefore y + d = daysBefore y' + d') : y' ≤ y := by
  obtain ⟨year, day, leap⟩ := inside
  obtain ⟨year', day', _⟩ := inside'
  unfold daysBefore at same
  apply Int.not_lt.mp
  intro later
  by_cases adjacent : y' = y + 1
  · subst adjacent
    by_cases last : d = 365
    · have := leap last
      omega
    · omega
  · omega

theorem YearDay.unique {y d y' d' : Int} (inside : YearDay y d) (inside' : YearDay y' d')
    (same : daysBefore y + d = daysBefore y' + d') : y = y' ∧ d = d' := by
  have years : y = y' := by
    have := inside.year_le inside' same
    have := inside'.year_le inside same.symm
    omega
  subst years
  exact ⟨rfl, by omega⟩

namespace Date

/-- A day that the calendar has, in whatever year. -/
structure OnCalendar (d : Date) : Prop where
  month : 1 ≤ d.month ∧ d.month ≤ 12
  day : 1 ≤ d.day ∧ d.day ≤ monthLength d.year d.month

theorem valid_iff {d : Date} : d.valid = true ↔ (minYear ≤ d.year ∧ d.year ≤ maxYear) ∧ d.OnCalendar := by
  unfold valid
  simp only [Bool.and_eq_true, decide_eq_true_eq]
  constructor
  · rintro ⟨⟨⟨⟨years, first⟩, last⟩, start⟩, length⟩
    exact ⟨years, ⟨first, last⟩, start, length⟩
  · rintro ⟨years, ⟨first, last⟩, start, length⟩
    exact ⟨⟨⟨⟨years, first⟩, last⟩, start⟩, length⟩

theorem toDay_inRange {d : Date} (valid : d.valid = true) : minDay ≤ d.toDay ∧ d.toDay ≤ maxDay := by
  obtain ⟨⟨first, last⟩, ⟨months, days⟩⟩ := valid_iff.mp valid
  have longest := monthLength_le d.year d.month
  have least : minDay = -96465292 := by decide
  have greatest : maxDay = 95026236 := by decide
  rw [least, greatest]
  unfold minYear at first
  unfold maxYear at last
  unfold toDay
  dsimp only
  split <;> split <;> omega

theorem ofDay_onCalendar (n : Int) : (ofDay n).OnCalendar := ⟨ofDay_month n, ofDay_day n⟩

/-- From March to December the days are counted from the first of March, and the count tells the month. -/
theorem marchDays {year : Int} {month day : Nat} (later : 3 ≤ month ∧ month ≤ 12)
    (days : 1 ≤ day ∧ day ≤ monthLength year month) (n : Int)
    (count : n = (153 * ((month : Int) - 3) + 2) / 5 + day - 1) :
    0 ≤ n ∧ n ≤ 305 ∧ (5 * n + 2) / 153 = month - 3 := by
  have number : month = 3 ∨ month = 4 ∨ month = 5 ∨ month = 6 ∨ month = 7 ∨ month = 8 ∨ month = 9 ∨
      month = 10 ∨ month = 11 ∨ month = 12 := by omega
  rcases number with rfl | rfl | rfl | rfl | rfl | rfl | rfl | rfl | rfl | rfl <;>
    simp only [monthLength] at days <;> omega

/-- Every day of the calendar is one of a year that begins in March. -/
theorem exists_ofMarch {d : Date} (real : d.OnCalendar) : ∃ era y n, d = ofMarch era y n ∧ YearDay y n := by
  obtain ⟨year, month, day⟩ := d
  obtain ⟨months, days⟩ := real
  dsimp only at months days
  by_cases february : month = 2
  · -- The leap day is the last of its year.
    subst february
    simp only [monthLength] at days
    refine ⟨(year - 1) / 400, (year - 1) % 400, 337 + day - 1, ?_, ?_, ?_, ?_⟩
    · have length : day ≤ 29 := by split at days <;> omega
      have number : (5 * (337 + (day : Int) - 1) + 2) / 153 = 11 := by omega
      simp [ofMarch, number]
      omega
    · omega
    · split at days <;> omega
    · intro last
      split at days
      · rename_i leap
        have := isLeapYear_iff.mp leap
        omega
      · omega
  · by_cases january : month = 1
    · subst january
      simp only [monthLength] at days
      refine ⟨(year - 1) / 400, (year - 1) % 400, 306 + day - 1, ?_, ?_, ?_, ?_⟩
      · have number : (5 * (306 + (day : Int) - 1) + 2) / 153 = 10 := by omega
        simp [ofMarch, number]
        omega
      · omega
      · omega
      · omega
    · have later : 3 ≤ month ∧ month ≤ 12 := by omega
      obtain ⟨first, last, number⟩ := marchDays later days _ rfl
      refine ⟨year / 400, year % 400, (153 * ((month : Int) - 3) + 2) / 5 + day - 1, ?_, ?_, ?_, ?_⟩
      · have early : (month : Int) - 3 < 10 := by omega
        have late : ¬ (month : Int) ≤ 2 := by omega
        simp [ofMarch, number, early, late]
        omega
      · omega
      · omega
      · omega

/-- A day of the calendar is read back from its number. -/
theorem ofDay_toDay {d : Date} (real : d.OnCalendar) : ofDay d.toDay = d := by
  obtain ⟨era, y, n, rfl, inside⟩ := exists_ofMarch real
  obtain ⟨era', y', n', same, inside', number⟩ := ofDay_eq (ofMarch era y n).toDay
  rw [toDay_ofMarch inside] at number
  have size := inside.size
  have size' := inside'.size
  have eras : era = era' := by omega
  subst eras
  obtain ⟨rfl, rfl⟩ := inside.unique inside' (by omega)
  exact same

/-! ## The day after -/

/-- The day after. -/
def next (d : Date) : Date :=
  if d.day < monthLength d.year d.month then ⟨d.year, d.month, d.day + 1⟩
  else if d.month < 12 then ⟨d.year, d.month + 1, 1⟩
  else ⟨d.year + 1, 1, 1⟩

theorem one_le_monthLength (y : Int) (m : Nat) : 1 ≤ monthLength y m := by
  unfold monthLength
  split
  · split <;> omega
  all_goals omega

theorem next_onCalendar {d : Date} (real : d.OnCalendar) : d.next.OnCalendar := by
  obtain ⟨month, day⟩ := real
  unfold next
  split
  · constructor
    · exact month
    · dsimp only
      omega
  · split
    · constructor
      · dsimp only
        omega
      · exact ⟨Nat.le_refl 1, one_le_monthLength _ _⟩
    · constructor
      · exact ⟨Nat.le_refl 1, Nat.le_of_ble_eq_true rfl⟩
      · exact ⟨Nat.le_refl 1, one_le_monthLength _ _⟩

/-- The first of a month comes after the last of the month before. -/
theorem toDay_turn (year : Int) {month : Nat} (months : 1 ≤ month ∧ month < 12) :
    (Date.mk year (month + 1) 1).toDay = (Date.mk year month (monthLength year month)).toDay + 1 := by
  by_cases february : month = 2
  · -- From the last of a February the year is counted on, with or without a leap day.
    subst february
    by_cases leap : isLeapYear year = true
    · have := isLeapYear_iff.mp leap
      simp [toDay, monthLength, leap]
      omega
    · have := mt isLeapYear_iff.mpr leap
      simp [toDay, monthLength, leap]
      omega
  · have number : month = 1 ∨ month = 3 ∨ month = 4 ∨ month = 5 ∨ month = 6 ∨ month = 7 ∨ month = 8 ∨
        month = 9 ∨ month = 10 ∨ month = 11 := by omega
    rcases number with rfl | rfl | rfl | rfl | rfl | rfl | rfl | rfl | rfl | rfl <;>
      simp [toDay, monthLength] <;> omega

/-- The numbers count the days. -/
theorem toDay_next {d : Date} (real : d.OnCalendar) : d.next.toDay = d.toDay + 1 := by
  obtain ⟨year, month, day⟩ := d
  obtain ⟨months, days⟩ := real
  dsimp only at months days
  unfold next
  dsimp only
  split
  · unfold toDay
    dsimp only
    split <;> omega
  · rename_i last
    have length : day = monthLength year month := by omega
    subst length
    split
    · rename_i early
      exact toDay_turn year ⟨months.1, early⟩
    · have december : month = 12 := by omega
      subst december
      simp [toDay, monthLength]
      omega

theorem ofDay_succ (n : Int) : ofDay (n + 1) = (ofDay n).next := by
  have real := ofDay_onCalendar n
  have number := toDay_next real
  rw [toDay_ofDay] at number
  rw [← number, ofDay_toDay (next_onCalendar real)]

/-- The day that comes some days after another. -/
def later : Nat → Date → Date
  | 0, d => d
  | n + 1, d => (later n d).next

theorem ofDay_add (n : Int) : ∀ k : Nat, ofDay (n + k) = later k (ofDay n)
  | 0 => by simp [later]
  | k + 1 => by
    have step := ofDay_succ (n + k)
    rw [ofDay_add n k] at step
    rw [later, ← step]
    congr 1
    omega

end Date
end PageSpec.Dynamic
