import Mathlib.Data.List.Basic
import PageSpec.Proofs.Dynamic.DateCalls
import PageSpec.Proofs.Dynamic.Days
import PageSpec.Proofs.Dynamic.Stamps
import PageSpec.Proofs.Text.Classes
/-!
Days as texts. A day of the years 0 to 9999 is written with four digits, two and two, and this text is the base
of a call for the same day; so is `today` with the number of days from the day that the clock shows. A call
without a format writes the day of its base in the first way.
-/
namespace PageSpec

namespace Text

theorem digitsValue_padded (width n : Nat) : digitsValue (padded width n).toList = n := by
  rw [digitsValue_eq, padded_toList, Nat.ofDigitChars_append]
  simp

end Text

namespace Dynamic

/-- The characters that bases of calls are written in. -/
def isBaseLetter (c : Char) : Bool := c.isDigit || ['+', '-', 't', 'o', 'd', 'a', 'y'].contains c

/-- None of them is a blank, a quote or a sign that parts a call, or a capital. -/
structure PlainLetter (c : Char) : Prop where
  comma : c ≠ ','
  bracket : c ≠ ')'
  blank : Text.isBlank c = false
  small : c.toLower = c

theorem plainLetter_of_base {c : Char} (letter : isBaseLetter c = true) : PlainLetter c := by
  unfold isBaseLetter at letter
  rw [Bool.or_eq_true] at letter
  rcases letter with digit | sign
  · have size : 48 ≤ c.toNat ∧ c.toNat ≤ 57 := Char.isDigit_iff_toNat.mp digit
    constructor
    · rintro rfl
      cases digit
    · rintro rfl
      cases digit
    · simp [Text.isBlank]
      omega
    · have low : ¬ (c.val ≥ 'A'.val ∧ c.val ≤ 'Z'.val) := by
        rintro ⟨capital, _⟩
        have : 65 ≤ c.toNat := capital
        omega
      unfold Char.toLower
      rw [dif_neg low]
  · simp at sign
    rcases sign with rfl | rfl | rfl | rfl | rfl | rfl | rfl <;> constructor <;> decide

/-- A text that can be the base of a call as it stands. -/
structure BaseText (base : List Char) : Prop where
  nonempty : base ≠ []
  letters : ∀ c ∈ base, isBaseLetter c = true

namespace BaseText
variable {base : List Char}

theorem absent (text : BaseText base) : ',' ∉ base ∧ ')' ∉ base := by
  constructor
  · intro member
    exact (plainLetter_of_base (text.letters _ member)).comma rfl
  · intro member
    exact (plainLetter_of_base (text.letters _ member)).bracket rfl

theorem trimmed (text : BaseText base) : Text.trimChars base = base :=
  Text.trimChars_letters fun c member => (plainLetter_of_base (text.letters c member)).blank

theorem small (text : BaseText base) : base.map Char.toLower = base := by
  have each : ∀ c ∈ base, c.toLower = id c := fun c member => (plainLetter_of_base (text.letters c member)).small
  rw [List.map_congr_left each, List.map_id]

/-- A call with a base and no format. -/
theorem resolveCalls_day {s : DateSettings} {m : Moment} (text : BaseText base)
    (read : readBase s base = .ok (some m)) (d : Dice) :
    resolveCalls s (dateCall base) d = ((formatDate s m defaultDateFormat).map String.toList, d) := by
  have whole := Text.splitOnce_absent text.absent.1
  have parts : baseText base = base ∧ formatText base = defaultDateFormat := by
    unfold baseText formatText
    rw [whole]
    exact ⟨text.trimmed, rfl⟩
  rw [resolveCalls_dateCall text.nonempty text.absent.2, renderCall_eq, parts.1, parts.2, read]

/-- A call with a base and a format. -/
theorem renderCall_format {s : DateSettings} {m : Moment} (text : BaseText base)
    (read : readBase s base = .ok (some m)) (format : List Char) (d : Dice) :
    renderCall s (base ++ ',' :: format) d =
      (formatDate s m (.ofList (unquoteFormat (Text.trimChars format))), d) := by
  have split := Text.splitOnce_append text.absent.1 format
  have parts : baseText (base ++ ',' :: format) = base ∧
      formatText (base ++ ',' :: format) = .ofList (unquoteFormat (Text.trimChars format)) := by
    unfold baseText formatText
    rw [split]
    exact ⟨text.trimmed, rfl⟩
  rw [renderCall_eq, parts.1, parts.2, read]

theorem resolveCalls_format {s : DateSettings} {m : Moment} {format : List Char} (text : BaseText base)
    (read : readBase s base = .ok (some m)) (inside : ')' ∉ format) (d : Dice) :
    resolveCalls s (dateCall (base ++ ',' :: format)) d =
      ((formatDate s m (.ofList (unquoteFormat (Text.trimChars format)))).map String.toList, d) := by
  have nonempty : base ++ ',' :: format ≠ [] := by simp
  have closed : ')' ∉ base ++ ',' :: format := by simp [text.absent.2, inside]
  rw [resolveCalls_dateCall nonempty closed, text.renderCall_format read]

end BaseText

/-! ## Written days -/

/-- A day as four digits of the year, two of the month and two of the day, with hyphens between them. -/
def Date.iso (day : Date) : List Char :=
  (Text.padded 4 day.year.toNat).toList ++ '-' :: ((Text.padded 2 day.month).toList ++
    '-' :: (Text.padded 2 day.day).toList)

theorem Date.iso_baseText (day : Date) : BaseText day.iso := by
  constructor
  · unfold Date.iso
    simp
  · intro c member
    unfold Date.iso at member
    have digits {width n : Nat} (digit : c ∈ (Text.padded width n).toList) : isBaseLetter c = true := by
      unfold isBaseLetter
      rw [Text.isDigit_of_mem_padded digit, Bool.true_or]
    simp only [List.mem_append, List.mem_cons] at member
    rcases member with year | rfl | month | rfl | date
    · exact digits year
    · rfl
    · exact digits month
    · rfl
    · exact digits date

/-- A day is read part by part. -/
theorem isoDay?_parts {year month day : List Char} (four : year.length = 4) (two : month.length = 2)
    (two' : day.length = 2) (years : ∀ c ∈ year, Text.isDigit c = true)
    (months : ∀ c ∈ month, Text.isDigit c = true) (days : ∀ c ∈ day, Text.isDigit c = true) :
    isoDay? (year ++ '-' :: (month ++ '-' :: day)) =
      some ⟨Text.digitsValue year, Text.digitsValue month, Text.digitsValue day⟩ := by
  have all : (year ++ (month ++ day)).all Text.isDigit = true := by
    simp only [List.all_append, Bool.and_eq_true, List.all_eq_true]
    exact ⟨years, months, days⟩
  obtain ⟨a, b, c, d, rfl⟩ := List.length_eq_four.mp four
  obtain ⟨e, f, rfl⟩ := List.length_eq_two.mp two
  obtain ⟨g, h, rfl⟩ := List.length_eq_two.mp two'
  simp only [List.cons_append, List.nil_append] at all ⊢
  simp only [isoDay?, all, ↓reduceIte]

/-- A day that can be written so. -/
structure Date.Writable (day : Date) : Prop where
  real : day.OnCalendar
  year : 0 ≤ day.year ∧ day.year ≤ 9999

namespace Date.Writable
variable {day : Date}

theorem valid (writable : day.Writable) : day.valid = true := by
  obtain ⟨first, last⟩ := writable.year
  apply Date.valid_iff.mpr
  unfold minYear maxYear
  exact ⟨by omega, writable.real⟩

theorem isoDay (writable : day.Writable) : isoDay? day.iso = some day := by
  obtain ⟨⟨months, days⟩, years⟩ := writable
  have longest := Date.monthLength_le day.year day.month
  have digit {width n : Nat} : ∀ c ∈ (Text.padded width n).toList, Text.isDigit c = true := by
    intro c member
    rw [Text.isDigit_eq]
    exact Text.isDigit_of_mem_padded member
  unfold Date.iso
  rw [isoDay?_parts (Text.padded_length (by omega) (by omega)) (Text.padded_length (by omega) (by omega))
    (Text.padded_length (by omega) (by omega)) digit digit digit]
  have whole : (day.year.toNat : Int) = day.year := Int.toNat_of_nonneg years.1
  rw [Text.digitsValue_padded, Text.digitsValue_padded, Text.digitsValue_padded, whole]

/-- A written day is the base that stands for it. -/
theorem readBase (writable : day.Writable) (s : DateSettings) :
    readBase s day.iso = .ok (some (.ofDay day.toDay)) := by
  have small := day.iso_baseText.small
  have other : Text.after? "today".toList day.iso = none := by
    have digits := @Text.isDigit_of_mem_padded 4 day.year.toNat
    have length : (Text.padded 4 day.year.toNat).toList ≠ [] := by
      rw [Text.padded_toList]
      simp [Nat.toDigits_ne_nil]
    unfold Date.iso
    obtain ⟨c, rest, front⟩ := List.exists_cons_of_ne_nil length
    rw [front] at digits ⊢
    have first := digits (.head _)
    have letter : 't' ≠ c := by
      rintro rfl
      cases first
    simp [Text.after?, letter]
  unfold Dynamic.readBase
  rw [small, other]
  simp only [writable.isoDay, writable.valid, ↓reduceIte]

end Date.Writable

/-- A call without a format writes its day in full. -/
theorem formatDate_iso {day : Date} (writable : day.Writable) (s : DateSettings) :
    formatDate s (.ofDay day.toDay) defaultDateFormat = .ok (.ofList day.iso) := by
  have number : (Moment.ofDay day.toDay).dayNumber = day.toDay := by
    unfold Moment.ofDay Moment.dayNumber Moment.perDay
    simp
  have date : (Moment.ofDay day.toDay).date = day := by
    unfold Moment.date
    rw [number, Date.ofDay_toDay writable.real]
  have inside : (Moment.ofDay day.toDay).inRange = true := by
    rw [Moment.inRange_iff, number]
    exact Date.toDay_inRange writable.valid
  have pieces : datePieces defaultDateFormat.toList =
      [.token ⟨['y', 'y', 'y', 'y'], .year, true⟩ [], .literal ['-'],
        .token ⟨['M', 'M'], .monthOrMinute, true⟩ [], .literal ['-'], .token ⟨['d', 'd'], .day, true⟩ []] := by
    decide +kernel
  have bare : applyOffsets (datePieces defaultDateFormat.toList) (.ofDay day.toDay) = some (.ofDay day.toDay) := by
    rw [pieces]
    apply applyOffsets_bare _ inside
    intro t offset member
    simp at member
    rcases member with ⟨_, rfl⟩ | ⟨_, rfl⟩ | ⟨_, rfl⟩ <;> rfl
  have positive : ¬ day.year < 0 := Int.not_lt.mpr writable.year.1
  rw [formatDate_ok_iff]
  refine ⟨_, bare, ?_⟩
  unfold written
  rw [pieces]
  simp [writePieces, DateToken.write, date, yearText, positive, readsAsMinutes, besideColon, DatePiece.isHour,
    DateToken.isHour, DatePiece.raw, Date.iso]

/-! ## Days counted from today -/

/-- The base for a day some days ahead of today, or back from it. -/
def fromToday (back : Bool) (n : Nat) : List Char :=
  ['t', 'o', 'd', 'a', 'y'] ++ (if back then '-' else '+') :: Nat.toDigits 10 n

/-- A number of days, negative where they are counted back. -/
def signedDays (back : Bool) (n : Nat) : Int := if back then -(n : Int) else n

theorem fromToday_baseText (back : Bool) (n : Nat) : BaseText (fromToday back n) := by
  constructor
  · unfold fromToday
    simp
  · intro c member
    unfold fromToday at member
    rcases List.mem_append.mp member with word | count
    · have letters : ['t', 'o', 'd', 'a', 'y'].all isBaseLetter = true := by rfl
      exact List.all_eq_true.mp letters c word
    · rcases List.mem_cons.mp count with rfl | digit
      · cases back <;> rfl
      · unfold isBaseLetter
        rw [Nat.isDigit_of_mem_toDigits (by omega) (by omega) digit, Bool.true_or]

theorem readInt64?_days {back : Bool} {n : Nat} (fits : n ≤ 9223372036854775807) :
    readInt64? ((if back then '-' else '+') :: Nat.toDigits 10 n) = some (signedDays back n) := by
  have digits : (Nat.toDigits 10 n).all Text.isDigit = true :=
    List.all_eq_true.mpr fun c member => Text.toDigits_digit member
  have value : Text.digitsValue (Nat.toDigits 10 n) = n := by
    rw [Text.digitsValue_eq, Nat.ofDigitChars_toDigits (by omega) (by omega)]
  have least : minOffset = -9223372036854775808 := rfl
  have greatest : maxOffset = 9223372036854775807 := rfl
  unfold readInt64? signedDays
  cases back with
  | true =>
    simp [Nat.toDigits_ne_nil, digits, value, least, greatest]
    omega
  | false =>
    simp [Nat.toDigits_ne_nil, digits, value, least, greatest]
    omega

theorem readBase_fromToday {s : DateSettings} {back : Bool} {n : Nat} (now : s.now.inRange = true)
    (lower : minDay ≤ s.now.dayNumber + signedDays back n) (upper : s.now.dayNumber + signedDays back n ≤ maxDay) :
    readBase s (fromToday back n) = .ok (some (.ofDay (s.now.dayNumber + signedDays back n))) := by
  have text := fromToday_baseText back n
  have small := text.small
  have word : Text.after? "today".toList (fromToday back n) =
      some ((if back then '-' else '+') :: Nat.toDigits 10 n) := Text.after?_append ['t', 'o', 'd', 'a', 'y'] _
  have letters : ((if back then '-' else '+') :: Nat.toDigits 10 n).filter (!Text.isBlank ·) =
      (if back then '-' else '+') :: Nat.toDigits 10 n := by
    apply List.filter_eq_self.mpr
    intro c member
    have base := text.letters c (List.mem_append_right _ member)
    simp [(plainLetter_of_base base).blank]
  -- All days are so near each other that such a count is read in 64 bits.
  have fits : n ≤ 9223372036854775807 := by
    obtain ⟨first, last⟩ := Moment.inRange_iff.mp now
    have least : minDay = -96465292 := by decide
    have greatest : maxDay = 95026236 := by decide
    unfold signedDays at lower upper
    cases back with
    | true => simp at lower upper; omega
    | false => simp at lower upper; omega
  have sign : (if back then '-' else '+') = '+' ∨ (if back then '-' else '+') = '-' := by
    cases back with
    | true => exact .inr rfl
    | false => exact .inl rfl
  unfold readBase
  rw [small, word]
  simp only [letters, sign, readInt64?_days fits, lower, upper]
  simp [Nat.toDigits_ne_nil]

/-- The number of the day so many days ahead or back. -/
theorem toDay_fromToday {s : DateSettings} {back : Bool} {n : Nat} {day : Date} (real : day.OnCalendar)
    (counted : if back then day.later n = s.now.date else s.now.date.later n = day) :
    s.now.dayNumber + signedDays back n = day.toDay := by
  unfold signedDays
  cases back with
  | true =>
    -- Counted back, today is the later one of the two days.
    have ahead := Date.ofDay_add day.toDay n
    rw [Date.ofDay_toDay real, show day.later n = s.now.date from counted] at ahead
    have number := congrArg Date.toDay ahead
    unfold Moment.date at number
    rw [Date.toDay_ofDay, Date.toDay_ofDay] at number
    simp
    omega
  | false =>
    have ahead := Date.ofDay_add s.now.dayNumber n
    rw [show Date.later n (.ofDay s.now.dayNumber) = day from counted] at ahead
    rw [← ahead, Date.toDay_ofDay]
    rfl

/-- Days of the years 0 to 9999 come back as they are written, and a day counted from today is the day so many
days later or earlier: it is written in full, and as the base of a call it stands for the same day. -/
theorem days_kept (s : DateSettings) (d : Dice) {day : Date} (writable : day.Writable) :
    resolveCalls s (dateCall day.iso) d = (.ok day.iso, d) ∧
    ∀ (back : Bool) (n : Nat), s.now.inRange = true →
      (if back then day.later n = s.now.date else s.now.date.later n = day) →
        resolveCalls s (dateCall (fromToday back n)) d = (.ok day.iso, d) ∧
        ∀ format : List Char, ')' ∉ format →
          resolveCalls s (dateCall (day.iso ++ ',' :: format)) d =
            resolveCalls s (dateCall (fromToday back n ++ ',' :: format)) d := by
  have told := formatDate_iso writable s
  have read := writable.readBase s
  constructor
  · rw [day.iso_baseText.resolveCalls_day read, told]
    simp [Except.map]
  · intro back n now counted
    have number := toDay_fromToday writable.real counted
    obtain ⟨lower, upper⟩ := Date.toDay_inRange writable.valid
    have text := fromToday_baseText back n
    have same : readBase s (fromToday back n) = .ok (some (.ofDay day.toDay)) := by
      rw [← number] at lower upper ⊢
      exact readBase_fromToday now lower upper
    constructor
    · rw [text.resolveCalls_day same, told]
      simp [Except.map]
    · intro format inside
      rw [day.iso_baseText.resolveCalls_format read inside, text.resolveCalls_format same inside]

/-- Half past eleven in the evening of the last day of 2023. -/
def lastEvening : DateSettings := ⟨⟨1704065400000⟩, 0, .enUs, true⟩

/-- Sixty days later is a leap day. -/
theorem leapDay_kept : Date.Writable ⟨2024, 2, 29⟩ ∧ lastEvening.now.inRange = true ∧
    lastEvening.now.date.later 60 = ⟨2024, 2, 29⟩ ∧
    resolveCalls lastEvening "date(2024-02-29)".toList default = (.ok "2024-02-29".toList, default) ∧
    resolveCalls lastEvening "date(today+60)".toList default = (.ok "2024-02-29".toList, default) ∧
    resolveCalls lastEvening "date(2024-02-29,MM dd+1)".toList default =
      resolveCalls lastEvening "date(today+60,MM dd+1)".toList default := by
  have writable : Date.Writable ⟨2024, 2, 29⟩ := ⟨⟨by decide, by decide⟩, by decide⟩
  have now : lastEvening.now.inRange = true := by decide
  have counted : lastEvening.now.date.later 60 = ⟨2024, 2, 29⟩ := by decide +kernel
  obtain ⟨back, ahead⟩ := days_kept lastEvening default writable
  obtain ⟨told, formats⟩ := ahead false 60 now counted
  exact ⟨writable, now, counted, back, told, formats "MM dd+1".toList (by decide)⟩

end Dynamic
end PageSpec
