import PageSpec.Proofs.Dynamic.DateCalls
import PageSpec.Proofs.Dynamic.Days
import PageSpec.Proofs.Dynamic.Draws
import PageSpec.Proofs.Dynamic.Offsets
/-!
The window of random dates. It reaches from 36 months before what the clock shows to 12 months after it, as far
as the calendar goes, and its ends lie whole days apart. A call without a base writes a moment of this window,
whatever the random source has to say.
-/
namespace PageSpec.Dynamic

/-! ## Months -/

/-- A moment some months after another: the same time of day, on the same day of the month or on the last one of
a month that is too short for it. -/
structure MonthsAfter (n : Int) (m r : Moment) : Prop where
  month : r.date.year * 12 + r.date.month = m.date.year * 12 + m.date.month + n
  day : r.date.day = min m.date.day (monthLength r.date.year r.date.month)
  clock : r.clock = m.clock

namespace Moment
variable {m r : Moment} {n : Int}

theorem clock_mk (n : Int) {c : Nat} (clock : c < 86400000) : (Moment.mk (n * perDay + c)).clock = c := by
  unfold Moment.clock perDay
  dsimp only
  omega

theorem date_mk {d : Date} (real : d.OnCalendar) {c : Nat} (clock : c < 86400000) :
    (Moment.mk (d.toDay * perDay + c)).date = d := by
  unfold date
  rw [dayNumber_mk _ clock, Date.ofDay_toDay real]

theorem date_valid (inside : m.inRange = true) : m.date.valid = true := by
  obtain ⟨lower, upper⟩ := inRange_iff.mp inside
  exact Date.valid_ofDay lower upper

theorem monthsAfter_of_shiftMonths? (shifted : m.shiftMonths? n = some r) :
    MonthsAfter n m r ∧ r.inRange = true := by
  unfold shiftMonths? at shifted
  dsimp only at shifted
  split at shifted
  · rename_i valid
    cases shifted
    have real := (Date.valid_iff.mp valid).2
    have range := Date.toDay_inRange valid
    have date := date_mk real m.clock_lt
    refine ⟨⟨?_, ?_, clock_mk _ m.clock_lt⟩, ?_⟩
    · rw [date]
      dsimp only
      omega
    · rw [date]
    · rw [inRange_iff, dayNumber_mk _ m.clock_lt]
      exact range
  · cases shifted

theorem not_monthsAfter_of_shiftMonths? (outside : m.shiftMonths? n = none) (inside : r.inRange = true) :
    ¬ MonthsAfter n m r := by
  -- Such a moment has the year and the month that are tried, and the day that is cut off for them.
  rintro ⟨month, day, _⟩
  have valid := date_valid inside
  have months := (Date.valid_iff.mp valid).2.month
  have year : (m.date.year * 12 + ((m.date.month : Int) - 1) + n) / 12 = r.date.year := by omega
  have number : ((m.date.year * 12 + ((m.date.month : Int) - 1) + n) % 12).toNat + 1 = r.date.month := by omega
  unfold shiftMonths? at outside
  dsimp only at outside
  rw [year, number, ← day] at outside
  rw [if_pos valid] at outside
  cases outside

end Moment

/-! ## The ends of the window -/

/-- An end of the window: the moment so many months after what the clock shows, or the clock's own moment where
the calendar has no such moment. -/
def WindowEnd (n : Int) (now e : Moment) : Prop :=
  (MonthsAfter n now e ∧ e.inRange = true) ∨ (e = now ∧ ∀ r : Moment, r.inRange = true → ¬ MonthsAfter n now r)

theorem windowEnd_getD (n : Int) (now : Moment) : WindowEnd n now ((now.shiftMonths? n).getD now) := by
  cases shifted : now.shiftMonths? n with
  | none => exact .inr ⟨rfl, fun r inside => Moment.not_monthsAfter_of_shiftMonths? shifted inside⟩
  | some r => exact .inl (Moment.monthsAfter_of_shiftMonths? shifted)

namespace WindowEnd
variable {n : Int} {now e : Moment}

theorem inRange (ends : WindowEnd n now e) (inside : now.inRange = true) : e.inRange = true := by
  rcases ends with ⟨_, inside⟩ | ⟨rfl, _⟩
  · exact inside
  · exact inside

theorem clock (ends : WindowEnd n now e) : e.clock = now.clock := by
  rcases ends with ⟨after, _⟩ | ⟨rfl, _⟩
  · exact after.clock
  · rfl

end WindowEnd

/-- A month is at most one day shorter in another year. -/
theorem monthLength_le_succ (y y' : Int) (m : Nat) : monthLength y m ≤ monthLength y' m + 1 := by
  unfold monthLength
  split
  · split <;> split <;> omega
  all_goals omega

/-- Some years later it is later, by no more than the days of as many leap years and one. -/
theorem Date.toDay_years {a b : Date} {k : Int} (some : 1 ≤ k) (few : k ≤ 3) (year : b.year = a.year + k)
    (month : b.month = a.month) (day : a.day ≤ b.day + 1 ∧ b.day ≤ a.day + 1) :
    a.toDay ≤ b.toDay ∧ b.toDay ≤ a.toDay + 366 * k + 1 := by
  unfold toDay
  dsimp only
  rw [year, month]
  split <;> split <;> omega

/-- Twelve months are a year: the month stays, and the day is cut off by one at most. -/
theorem MonthsAfter.years {m r : Moment} {n k : Int} (after : MonthsAfter n m r) (whole : n = 12 * k) :
    r.date.year = m.date.year + k ∧ r.date.month = m.date.month ∧
      r.date.day ≤ m.date.day ∧ m.date.day ≤ r.date.day + 1 := by
  obtain ⟨month, day, _⟩ := after
  have real : m.date.OnCalendar := Date.ofDay_onCalendar m.dayNumber
  have real' : r.date.OnCalendar := Date.ofDay_onCalendar r.dayNumber
  obtain ⟨first, last⟩ := real.month
  obtain ⟨first', last'⟩ := real'.month
  have same : r.date.month = m.date.month := by omega
  have year : r.date.year = m.date.year + k := by omega
  have length := monthLength_le_succ m.date.year r.date.year m.date.month
  have fits := real.day.2
  rw [same] at day
  exact ⟨year, same, by omega, by omega⟩

theorem Moment.toDay_date (m : Moment) : m.date.toDay = m.dayNumber := Date.toDay_ofDay m.dayNumber

theorem WindowEnd.start_le {now e : Moment} (ends : WindowEnd (-36) now e) :
    e.dayNumber ≤ now.dayNumber ∧ now.dayNumber ≤ e.dayNumber + 1099 := by
  rcases ends with ⟨after, _⟩ | ⟨rfl, _⟩
  · obtain ⟨year, month, cut, near⟩ := after.years (k := -3) rfl
    have days := Date.toDay_years (a := e.date) (b := now.date) (k := 3) (by decide) (by decide) (by omega)
      month.symm ⟨by omega, near⟩
    rw [Moment.toDay_date, Moment.toDay_date] at days
    omega
  · omega

theorem WindowEnd.le_stop {now e : Moment} (ends : WindowEnd 12 now e) :
    now.dayNumber ≤ e.dayNumber ∧ e.dayNumber ≤ now.dayNumber + 367 := by
  rcases ends with ⟨after, _⟩ | ⟨rfl, _⟩
  · obtain ⟨year, month, cut, near⟩ := after.years (k := 1) rfl
    have days := Date.toDay_years (a := now.date) (b := e.date) (k := 1) (by decide) (by decide) year
      month ⟨near, by omega⟩
    rw [Moment.toDay_date, Moment.toDay_date] at days
    omega
  · omega

/-! ## Drawing -/

/-- The window around what the clock shows. -/
structure Window (now start stop : Moment) : Prop where
  opens : WindowEnd (-36) now start
  closes : WindowEnd 12 now stop
  ordered : start.millis ≤ now.millis ∧ now.millis ≤ stop.millis
  /-- Both ends have the time of day of the clock, however fine it is. -/
  days : ∃ n : Nat, n ≤ 1466 ∧ stop.millis = start.millis + n * Moment.perDay

theorem window_of_ends {now start stop : Moment} (first : WindowEnd (-36) now start)
    (last : WindowEnd 12 now stop) : Window now start stop := by
  obtain ⟨early, near⟩ := first.start_le
  obtain ⟨late, near'⟩ := last.le_stop
  have startMillis := start.millis_eq
  have stopMillis := stop.millis_eq
  have nowMillis := now.millis_eq
  rw [first.clock] at startMillis
  rw [last.clock] at stopMillis
  unfold Moment.perDay at startMillis stopMillis nowMillis
  refine ⟨first, last, by omega, (stop.dayNumber - start.dayNumber).toNat, by omega, ?_⟩
  unfold Moment.perDay
  omega

theorem Moment.inRange_between {a m b : Moment} (first : a.inRange = true) (last : b.inRange = true)
    (lower : a.millis ≤ m.millis) (upper : m.millis ≤ b.millis) : m.inRange = true := by
  rw [inRange_iff] at first last ⊢
  unfold dayNumber perDay at *
  omega

/-- A call without a base writes a moment of the window around what the clock shows, a whole number of
milliseconds after its start, whatever the source of random words says. The number is drawn from a range that
is not empty, and neither its bounds nor the moment drawn go beyond what can be represented. -/
theorem drawn_in_window {s : DateSettings} {inner : List Char} (now : s.now.inRange = true)
    (baseless : readBase s (baseText inner) = .ok none) :
    ∃ start stop : Moment, Window s.now start stop ∧ start.inRange = true ∧ stop.inRange = true ∧
      (0 ≤ stop.millis - start.millis ∧ stop.millis - start.millis ≤ greatestInt64) ∧
      (randomMoment s = do return ⟨start.millis + (← Draw.between 0 (stop.millis - start.millis))⟩) ∧
      ∀ d : Dice, ∃ k : Nat, start.millis + k ≤ stop.millis ∧ Moment.inRange ⟨start.millis + k⟩ = true ∧
        renderCall s inner d = (formatDate s ⟨start.millis + k⟩ (.ofList (unquoteFormat (Text.trimChars inner))),
          (randomMoment s d).2) := by
  have first := windowEnd_getD (-36) s.now
  have last := windowEnd_getD 12 s.now
  have drawn : randomMoment s = do
      return ⟨((s.now.shiftMonths? (-36)).getD s.now).millis +
        (← Draw.between 0 (max 0 (((s.now.shiftMonths? 12).getD s.now).millis -
          ((s.now.shiftMonths? (-36)).getD s.now).millis)))⟩ := rfl
  generalize (s.now.shiftMonths? (-36)).getD s.now = start at first drawn
  generalize (s.now.shiftMonths? 12).getD s.now = stop at last drawn
  have window := window_of_ends first last
  obtain ⟨n, few, length⟩ := window.days
  unfold Moment.perDay at length
  have range : 0 ≤ stop.millis - start.millis ∧ stop.millis - start.millis ≤ greatestInt64 := by
    unfold greatestInt64
    omega
  rw [Int.max_eq_right range.1] at drawn
  refine ⟨start, stop, window, first.inRange now, last.inRange now, range, drawn, fun d => ?_⟩
  have least : leastInt64 ≤ 0 := by decide
  have inside := Draw.between_mem least range.1 range.2 d
  have moment : (randomMoment s d).1 =
      ⟨start.millis + (Draw.between 0 (stop.millis - start.millis) d).1⟩ := by
    rw [drawn]
    rfl
  obtain ⟨k, number⟩ := Int.eq_ofNat_of_zero_le inside.1
  rw [number] at moment inside
  have upper : start.millis + k ≤ stop.millis := by omega
  refine ⟨k, upper, ?_, ?_⟩
  · exact Moment.inRange_between (first.inRange now) (last.inRange now) (by dsimp only; omega) upper
  · rw [renderCall_eq, baseless]
    dsimp only
    rw [moment]

/-- Noon of a leap day: neither the year three years before nor the next one has such a day. -/
def leapNoon : DateSettings := ⟨⟨1709208000000⟩, 0, .ptBr, false⟩

theorem leapNoon_drawn : leapNoon.now.inRange = true ∧
    readBase leapNoon (baseText "dd/MM/yyyy".toList) = .ok none ∧
    ∃ start stop : Moment, Window leapNoon.now start stop ∧ ∀ d : Dice, ∃ k : Nat, start.millis + k ≤ stop.millis ∧
      (renderCall leapNoon "dd/MM/yyyy".toList d).1 = formatDate leapNoon ⟨start.millis + k⟩ "dd/MM/yyyy" := by
  have now : leapNoon.now.inRange = true := by decide
  have baseless : readBase leapNoon (baseText "dd/MM/yyyy".toList) = .ok none := by rfl
  obtain ⟨start, stop, window, _, _, _, _, each⟩ := drawn_in_window now baseless
  refine ⟨now, baseless, start, stop, window, fun d => ?_⟩
  obtain ⟨k, upper, _, written⟩ := each d
  exact ⟨k, upper, by rw [written]; rfl⟩

end PageSpec.Dynamic
