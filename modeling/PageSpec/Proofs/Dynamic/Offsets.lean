import PageSpec.Proofs.Dynamic.Calendar
import PageSpec.Proofs.Dynamic.Places
import PageSpec.Proofs.Effect
/-!
Offsets and the shifts they come to. A format is meant to shift a moment by the sum of the offsets that are
written for each unit, or to be refused. It does so exactly where nothing is lost while the offsets are read
and added up, or where the shift leaves the range either way; in particular where every offset fits into 64
bits and no unit has offsets of both signs.
-/
namespace PageSpec.Dynamic

/-! ## Shifts in range -/

namespace Moment

/-- Whatever is in range lies within some 500000 years of 1970. -/
def Near (m : Moment) : Prop := -200000000 ≤ m.dayNumber ∧ m.dayNumber ≤ 200000000

theorem near_of_inRange {m : Moment} (inside : m.inRange = true) : m.Near := by
  obtain ⟨lower, upper⟩ := inRange_iff.mp inside
  have first : minDay = -96465292 := by decide
  have last : maxDay = 95026236 := by decide
  unfold Near
  omega

theorem near_year {m : Moment} (near : m.Near) : -1000000 ≤ m.date.year ∧ m.date.year ≤ 1000000 := by
  obtain ⟨lower, upper⟩ := near
  obtain ⟨era, y, d, same, inside, numbered⟩ := Date.ofDay_eq m.dayNumber
  have year := inside.year
  have day := inside.day
  unfold daysBefore at numbered
  unfold date
  rw [same]
  unfold Date.ofMarch
  dsimp only
  split <;> split <;> omega

theorem toDay_near {d : Date} (valid : d.valid = true) : -200000000 ≤ d.toDay ∧ d.toDay ≤ 200000000 := by
  have parts : (((((minYear ≤ d.year ∧ d.year ≤ maxYear) ∧ 1 ≤ d.month) ∧ d.month ≤ 12) ∧ 1 ≤ d.day) ∧
      d.day ≤ monthLength d.year d.month) := by simpa [Date.valid] using valid
  obtain ⟨⟨⟨⟨⟨first, last⟩, one⟩, twelve⟩, start⟩, length⟩ := parts
  have longest := Date.monthLength_le d.year d.month
  unfold minYear at first
  unfold maxYear at last
  unfold Date.toDay
  dsimp only
  split <;> split <;> omega

theorem dayNumber_mk (n : Int) {c : Nat} (clock : c < 86400000) : (Moment.mk (n * perDay + c)).dayNumber = n := by
  unfold dayNumber perDay
  dsimp only
  omega

/-- Months that are in range are few, and lead to a moment that is near. -/
theorem shiftMonths?_near {m r : Moment} {n : Int} (near : m.Near) (shifted : m.shiftMonths? n = some r) :
    r.Near ∧ n.natAbs < 100000000 := by
  obtain ⟨first, last⟩ := near_year near
  obtain ⟨one, twelve⟩ := Date.ofDay_month m.dayNumber
  have month : 1 ≤ m.date.month ∧ m.date.month ≤ 12 := ⟨one, twelve⟩
  unfold shiftMonths? at shifted
  dsimp only at shifted
  split at shifted
  · rename_i valid
    cases shifted
    constructor
    · unfold Near
      rw [dayNumber_mk _ m.clock_lt]
      exact toDay_near valid
    · have years : minYear ≤ (m.date.year * 12 + (m.date.month - 1 : Int) + n) / 12 ∧
          (m.date.year * 12 + (m.date.month - 1 : Int) + n) / 12 ≤ maxYear := by
        simp only [Date.valid, Bool.and_eq_true, decide_eq_true_eq] at valid
        exact valid.1.1.1.1
      unfold minYear maxYear at years
      omega
  · cases shifted

theorem shift?_near {m r : Moment} {n : Int} (near : m.Near) (shifted : m.shift? n = some r) :
    r.Near ∧ n.natAbs < 100000000000000000 := by
  unfold shift? at shifted
  dsimp only at shifted
  split at shifted
  · rename_i inside
    cases shifted
    have there := near_of_inRange inside
    refine ⟨there, ?_⟩
    unfold Near dayNumber perDay at near there
    dsimp only at there
    omega
  · cases shifted

/-- Where more months do not fit into 32 bits, they are out of range anyway. -/
theorem addMonths?_eq {m : Moment} (near : m.Near) (n : Int) : m.addMonths? n = m.shiftMonths? n := by
  unfold addMonths?
  split
  · rfl
  · rename_i many
    cases shifted : m.shiftMonths? n with
    | none => rfl
    | some r =>
      have few := (shiftMonths?_near near shifted).2
      have size : twoTo 32 = 4294967296 := rfl
      omega

end Moment

/-- The moment after a shift by some amount of each unit, from the largest, unless a step leaves the range. -/
def shiftBy (amount : DateUnit → Int) (m : Moment) : Option Moment := do
  let m ← m.shiftMonths? (amount .years * 12)
  let m ← m.shiftMonths? (amount .months)
  let m ← m.shift? (amount .days * Moment.perDay)
  let m ← m.shift? (amount .hours * 3600000)
  let m ← m.shift? (amount .minutes * 60000)
  let m ← m.shift? (amount .seconds * 1000)
  m.shift? (amount .millis)

theorem shift?_eq {m : Moment} (near : m.Near) (o : Offsets) : o.shift? m = shiftBy o.of m := by
  unfold Offsets.shift? shiftBy
  rw [Moment.addMonths?_eq near]
  cases years : m.shiftMonths? (o.years * 12) with
  | none => simp [Offsets.of, years]
  | some r =>
    have next := Moment.addMonths?_eq (Moment.shiftMonths?_near near years).1 o.months
    simp [Offsets.of, years, next]

/-- No amount that stays in range comes near the bounds of 64 bits. -/
theorem shiftBy_bounded {amount : DateUnit → Int} {m r : Moment} (near : m.Near)
    (shifted : shiftBy amount m = some r) (u : DateUnit) : minOffset < amount u ∧ amount u < maxOffset := by
  unfold shiftBy at shifted
  simp only [Option.bind_eq_bind, Option.bind_eq_some_iff] at shifted
  obtain ⟨_, years, _, months, _, days, _, hours, _, minutes, _, seconds, millis⟩ := shifted
  obtain ⟨near, years⟩ := Moment.shiftMonths?_near near years
  obtain ⟨near, months⟩ := Moment.shiftMonths?_near near months
  obtain ⟨near, days⟩ := Moment.shift?_near near days
  obtain ⟨near, hours⟩ := Moment.shift?_near near hours
  obtain ⟨near, minutes⟩ := Moment.shift?_near near minutes
  obtain ⟨near, seconds⟩ := Moment.shift?_near near seconds
  obtain ⟨_, millis⟩ := Moment.shift?_near near millis
  unfold Moment.perDay at days
  unfold minOffset maxOffset leastInt64 greatestInt64
  cases u <;> omega

/-! ## Sums -/

/-- The offsets that are written for a unit, in order. -/
def offsetsOf (u : DateUnit) (xs : List Place) : List (List Char) :=
  (xs.filter fun x => x.unit? = some u).map Place.offset

/-- What offsets come to. -/
def exactSum : List (List Char) → Int
  | [] => 0
  | raw :: rest => signedValue raw + exactSum rest

/-- What offsets come to where they are counted one by one, from a sum so far. -/
def countedSum (sum : Int) (raws : List (List Char)) : Int :=
  raws.foldl (fun sum raw => saturate (sum + offsetValue raw)) sum

/-- What is lost where offsets are counted one by one: an offset that does not fit into 64 bits, and what a
sum has beyond them. -/
def lost (sum : Int) : List (List Char) → Int
  | [] => 0
  | raw :: rest =>
    let next := saturate (sum + offsetValue raw)
    (signedValue raw - offsetValue raw) + (sum + offsetValue raw - next) + lost next rest

/-- Numbers of 64 bits with a sign. -/
def Fits (n : Int) : Prop := minOffset ≤ n ∧ n ≤ maxOffset

instance (n : Int) : Decidable (Fits n) := inferInstanceAs (Decidable (_ ∧ _))

/-- Offsets that move one way only, each of which fits into 64 bits. -/
structure OneWay (raws : List (List Char)) : Prop where
  fits : ∀ raw ∈ raws, Fits (signedValue raw)
  way : (∀ raw ∈ raws, 0 ≤ signedValue raw) ∨ ∀ raw ∈ raws, signedValue raw ≤ 0

theorem Offsets.of_add (o : Offsets) (u v : DateUnit) (n : Int) :
    (o.add u n).of v = if u = v then saturate (o.of v + n) else o.of v := by
  cases u <;> cases v <;> rfl

/-- Each unit has a sum of its own. -/
theorem count_of (u : DateUnit) : ∀ (xs : List Place) (sums : Offsets),
    (xs.foldl Place.count sums).of u = countedSum (sums.of u) (offsetsOf u xs)
  | [], _ => rfl
  | x :: xs, sums => by
    rw [List.foldl_cons, count_of u xs]
    unfold Place.count offsetsOf
    cases unit : x.unit? with
    | none => simp [unit]
    | some v =>
      by_cases same : v = u
      · simp [unit, same, Offsets.of_add, countedSum]
      · simp [unit, same, Offsets.of_add]

theorem counted_add_lost : ∀ (raws : List (List Char)) (sum : Int),
    countedSum sum raws + lost sum raws = sum + exactSum raws
  | [], sum => by simp [countedSum, lost, exactSum]
  | raw :: rest, sum => by
    have later := counted_add_lost rest (saturate (sum + offsetValue raw))
    simp only [countedSum, lost, exactSum, List.foldl_cons] at later ⊢
    omega

theorem OneWay.tail {raw : List Char} {rest : List (List Char)} (one : OneWay (raw :: rest)) : OneWay rest where
  fits r later := one.fits r (.tail _ later)
  way := one.way.imp (fun up r later => up r (.tail _ later)) fun down r later => down r (.tail _ later)

theorem exactSum_nonneg : ∀ {raws : List (List Char)}, (∀ raw ∈ raws, 0 ≤ signedValue raw) →
    0 ≤ exactSum raws
  | [], _ => Int.le_refl 0
  | raw :: rest, up => by
    have first := up raw (.head _)
    have later := exactSum_nonneg fun r later => up r (.tail _ later)
    rw [exactSum]
    omega

theorem exactSum_nonpos : ∀ {raws : List (List Char)}, (∀ raw ∈ raws, signedValue raw ≤ 0) →
    exactSum raws ≤ 0
  | [], _ => Int.le_refl 0
  | raw :: rest, down => by
    have first := down raw (.head _)
    have later := exactSum_nonpos fun r later => down r (.tail _ later)
    rw [exactSum]
    omega

/-- A sum that moves one way is cut off at the end if at all. -/
theorem countedSum_oneWay : ∀ {raws : List (List Char)} {sum : Int}, OneWay raws → Fits sum →
    countedSum sum raws = saturate (sum + exactSum raws)
  | [], sum, _, ⟨lower, upper⟩ => by
    simp only [countedSum, exactSum, saturate, List.foldl_nil]
    omega
  | raw :: rest, sum, one, ⟨lower, upper⟩ => by
    have value : offsetValue raw = signedValue raw := if_pos (one.fits raw (.head _))
    have signs : 0 ≤ signedValue raw ∧ 0 ≤ exactSum rest ∨ signedValue raw ≤ 0 ∧ exactSum rest ≤ 0 := by
      rcases one.way with up | down
      · exact .inl ⟨up raw (.head _), exactSum_nonneg fun r later => up r (.tail _ later)⟩
      · exact .inr ⟨down raw (.head _), exactSum_nonpos fun r later => down r (.tail _ later)⟩
    have next : Fits (saturate (sum + signedValue raw)) := by
      unfold Fits saturate minOffset maxOffset leastInt64 greatestInt64
      omega
    have step : countedSum sum (raw :: rest) = countedSum (saturate (sum + signedValue raw)) rest := by
      simp [countedSum, value]
    rw [step, countedSum_oneWay one.tail next, exactSum]
    unfold saturate minOffset maxOffset leastInt64 greatestInt64 at *
    omega

/-! ## Formats -/

/-- The offsets that a format has for a unit, in order. -/
def writtenOffsets (format : String) (u : DateUnit) : List (List Char) :=
  offsetsOf u (places [] (datePieces format.toList))

/-- The sums of the offsets of a format, as they are counted. -/
def counted (format : String) : Offsets := collectOffsets false none .zero (datePieces format.toList)

/-- A moment is written after the exact shift of its format, for every unit the sum of all offsets written
for it, or the format is refused because this shift leaves the range. -/
def AppliesExactly (s : DateSettings) (m : Moment) (format : String) : Prop :=
  match shiftBy (fun u => exactSum (writtenOffsets format u)) m with
  | some r => (∀ u, (counted format).of u = exactSum (writtenOffsets format u)) ∧
    formatDate s m format = .ok (.ofList (writePieces s r [] (datePieces format.toList)))
  | none => formatDate s m format = .error (.mistake (.dateRange format))

theorem counted_of (format : String) (u : DateUnit) :
    (counted format).of u = countedSum 0 (writtenOffsets format u) := by
  have all := collectOffsets_places (datePieces format.toList) [] .zero
  have sum := count_of u (places [] (datePieces format.toList)) .zero
  have nothing : Offsets.zero.of u = 0 := by cases u <;> rfl
  rw [nothing] at sum
  exact (congrArg (Offsets.of · u) all).trans sum

theorem counted_exact_iff (format : String) (u : DateUnit) :
    (counted format).of u = exactSum (writtenOffsets format u) ↔ lost 0 (writtenOffsets format u) = 0 := by
  have balance := counted_add_lost (writtenOffsets format u) 0
  rw [counted_of]
  omega

theorem formatDate_eq {m : Moment} (inside : m.inRange = true) (s : DateSettings) (format : String) :
    formatDate s m format = match shiftBy (counted format).of m with
      | some r => .ok (.ofList (writePieces s r [] (datePieces format.toList)))
      | none => .error (.mistake (.dateRange format)) := by
  have shifted : applyOffsets (datePieces format.toList) m = shiftBy (counted format).of m :=
    shift?_eq (Moment.near_of_inRange inside) _
  have formatted : formatDate s m format = match applyOffsets (datePieces format.toList) m with
      | some r => .ok (.ofList (writePieces s r [] (datePieces format.toList)))
      | none => .error (.mistake (.dateRange format)) := rfl
  rw [formatted, shifted]

theorem appliesExactly_of_kept {s : DateSettings} {m : Moment} {format : String} (inside : m.inRange = true)
    (kept : ∀ u, (counted format).of u = exactSum (writtenOffsets format u)) : AppliesExactly s m format := by
  have same : (counted format).of = fun u => exactSum (writtenOffsets format u) := funext kept
  have formatted := formatDate_eq inside s format
  rw [same] at formatted
  unfold AppliesExactly
  split
  · rename_i r shifted
    rw [shifted] at formatted
    exact ⟨kept, formatted⟩
  · rename_i shifted
    rw [shifted] at formatted
    exact formatted

/-- An amount at the bounds of 64 bits takes every moment out of range. -/
theorem shiftBy_far {amount : DateUnit → Int} {m : Moment} {u : DateUnit} (near : m.Near)
    (far : ¬ (minOffset < amount u ∧ amount u < maxOffset)) : shiftBy amount m = none := by
  cases shifted : shiftBy amount m with
  | none => rfl
  | some r => exact absurd (shiftBy_bounded near shifted u) far

/-- A unit whose offsets move one way is shifted exactly, or by so much that every moment leaves the range. -/
theorem oneWay_kept {format : String} {u : DateUnit} (one : OneWay (writtenOffsets format u)) :
    (counted format).of u = exactSum (writtenOffsets format u) ∨
      (¬ (minOffset < (counted format).of u ∧ (counted format).of u < maxOffset) ∧
        ¬ (minOffset < exactSum (writtenOffsets format u) ∧ exactSum (writtenOffsets format u) < maxOffset)) := by
  have zero : Fits 0 := ⟨by decide, by decide⟩
  rw [counted_of, countedSum_oneWay one zero]
  unfold saturate minOffset maxOffset leastInt64 greatestInt64
  omega

/-- The offsets of a format are applied exactly if nothing is lost of them, unit by unit, or if the moment
leaves the range by the exact shift as well as by what was counted, and in no other case. In particular they
are where every offset fits into 64 bits and those of each unit move one way. -/
theorem appliesExactly_iff (s : DateSettings) {m : Moment} (format : String) (inside : m.inRange = true) :
    (AppliesExactly s m format ↔ (∀ u, lost 0 (writtenOffsets format u) = 0) ∨
      (shiftBy (fun u => exactSum (writtenOffsets format u)) m = none ∧
        formatDate s m format = .error (.mistake (.dateRange format)))) ∧
    ((∀ u, OneWay (writtenOffsets format u)) → AppliesExactly s m format) := by
  refine ⟨⟨fun applied => ?_, ?_⟩, fun one => ?_⟩
  · unfold AppliesExactly at applied
    split at applied
    · exact .inl fun u => (counted_exact_iff format u).mp (applied.1 u)
    · rename_i outside
      exact .inr ⟨outside, applied⟩
  · rintro (nothing | ⟨outside, refused⟩)
    · exact appliesExactly_of_kept inside fun u => (counted_exact_iff format u).mpr (nothing u)
    · unfold AppliesExactly
      rw [outside]
      exact refused
  · by_cases kept : ∀ u, (counted format).of u = exactSum (writtenOffsets format u)
    · exact appliesExactly_of_kept inside kept
    · obtain ⟨u, differs⟩ := Classical.not_forall.mp kept
      obtain ⟨far, far'⟩ := (oneWay_kept (one u)).resolve_left differs
      have near := Moment.near_of_inRange inside
      have formatted := formatDate_eq inside s format
      rw [shiftBy_far near far] at formatted
      unfold AppliesExactly
      have outside : shiftBy (fun u => exactSum (writtenOffsets format u)) m = none := shiftBy_far near far'
      rw [outside]
      exact formatted

-- Offsets that move both ways may go beyond 64 bits on the way to a small sum, and then the order counts.
example : (counted "dd+9223372036854775807 d+1 d-9223372036854775807").of .days = 0 ∧
    (counted "dd+1 d-9223372036854775807 d+9223372036854775807").of .days = 1 := by decide +kernel

/-- The fifth of October 2025, and how dates are written then. -/
def october : Moment := ⟨1759622400000⟩
def octoberDates : DateSettings := ⟨october, 0, .ptBr, false⟩

/-- An offset of more days than 64 bits can count is passed over, and the day is written as it is. -/
theorem farDay_ignored : ¬ AppliesExactly octoberDates october "dd+99999999999999999999/MM/yyyy" := by
  have outside : shiftBy (fun u => exactSum (writtenOffsets "dd+99999999999999999999/MM/yyyy" u)) october =
      none := by decide +kernel
  have told : formatDate octoberDates october "dd+99999999999999999999/MM/yyyy" = .ok "05/10/2025" :=
    eq_ok_of_toOption (by decide +kernel)
  unfold AppliesExactly
  rw [outside, told]
  exact nofun

/-- Days forth and back are applied together; hours beyond 64 bits are refused, though their sum was cut off. -/
theorem october_applied : october.inRange = true ∧
    (∀ u, lost 0 (writtenOffsets "dd+3/dd-1" u) = 0) ∧ AppliesExactly octoberDates october "dd+3/dd-1" ∧
    (∀ u, OneWay (writtenOffsets "HH+9223372036854775807 H+1" u)) ∧
    AppliesExactly octoberDates october "HH+9223372036854775807 H+1" := by
  have inside : october.inRange = true := by decide
  have nothing (u : DateUnit) : lost 0 (writtenOffsets "dd+3/dd-1" u) = 0 := by cases u <;> decide +kernel
  have one (u : DateUnit) : OneWay (writtenOffsets "HH+9223372036854775807 H+1" u) := by
    constructor
    · cases u <;> decide +kernel
    · exact .inl (by cases u <;> decide +kernel)
  refine ⟨inside, nothing, ?_, one, ?_⟩
  · exact (appliesExactly_iff octoberDates _ inside).1.mpr (.inl nothing)
  · exact (appliesExactly_iff octoberDates _ inside).2 one

end PageSpec.Dynamic
