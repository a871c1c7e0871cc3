import Mathlib.Algebra.Group.Nat.Defs
import PageSpec.Dynamic.Resolver
import PageSpec.Proofs.Dynamic.Calendar
import PageSpec.Proofs.Effect
/-!
Written dates and the instants they name. A format whose tokens keep their width and show every part of a
moment with its zone writes different texts for different moments, so that such a text can be read back.
The clock of dates tells the present instant, and these texts the instants they were computed from, exactly
where dates are not in universal time or the local clock is that of universal time.
-/
namespace PageSpec

/-! ## Digits -/

namespace Text

theorem padded_toList (width n : Nat) : (padded width n).toList =
    List.replicate (width - (Nat.toDigits 10 n).length) '0' ++ Nat.toDigits 10 n := by
  simp [padded, Nat.toString_eq_repr, Nat.toList_repr]

theorem padded_length {width n : Nat} (some : 0 < width) (fits : n < 10 ^ width) :
    (padded width n).toList.length = width := by
  have short := (Nat.length_toDigits_le_iff (b := 10) (by omega) some).mpr fits
  rw [padded_toList, List.length_append, List.length_replicate]
  omega

/-- A number is read back from its digits, whatever their number. -/
theorem padded_injective {width m n : Nat} (same : (padded width m).toList = (padded width n).toList) :
    m = n := by
  have read := congrArg (fun ds => Nat.ofDigitChars 10 ds 0) same
  simpa [padded_toList, Nat.ofDigitChars_append] using read

theorem isDigit_of_mem_padded {width n : Nat} {c : Char} (member : c ∈ (padded width n).toList) :
    c.isDigit = true := by
  rw [padded_toList] at member
  rcases List.mem_append.mp member with zero | digit
  · rw [(List.mem_replicate.mp zero).2]
    decide
  · exact Nat.isDigit_of_mem_toDigits (by omega) (by omega) digit

/-- A sign is no digit. -/
theorem padded_ne_minus {width n : Nat} {cs : List Char} : (padded width n).toList ≠ '-' :: cs := by
  intro same
  have member : '-' ∈ (padded width n).toList := by simp [same]
  have := isDigit_of_mem_padded member
  cases this

end Text

namespace Dynamic

theorem yearText_length {y : Int} (lower : -999 ≤ y) (upper : y ≤ 9999) : (yearText y).toList.length = 4 := by
  unfold yearText
  split
  · rw [String.toList_append, List.length_append, Text.padded_length (by omega) (by omega)]
    rfl
  · exact Text.padded_length (by omega) (by omega)

theorem yearText_injective {y y' : Int} (same : (yearText y).toList = (yearText y').toList) : y = y' := by
  unfold yearText at same
  split at same <;> split at same
  · simp only [String.toList_append] at same
    have digits := Text.padded_injective (List.append_cancel_left same)
    omega
  · simp at same
    exact absurd same.symm Text.padded_ne_minus
  · simp at same
    exact absurd same Text.padded_ne_minus
  · have digits := Text.padded_injective same
    omega

theorem zoneText_length {minutes : Int} (day : minutes.natAbs < 1440) :
    (zoneText minutes).toList.length = 5 := by
  unfold zoneText
  rw [String.toList_append, String.toList_append, List.length_append, List.length_append,
    Text.padded_length (by omega) (by omega), Text.padded_length (by omega) (by omega)]
  split <;> rfl

theorem zoneText_injective {m m' : Int} (same : (zoneText m).toList = (zoneText m').toList) : m = m' := by
  unfold zoneText at same
  simp only [String.toList_append] at same
  obtain ⟨front, minutes⟩ := List.append_inj' same (by
    rw [Text.padded_length (by omega) (by omega), Text.padded_length (by omega) (by omega)])
  have minutes := Text.padded_injective minutes
  split at front <;> split at front
  · have hours := Text.padded_injective (List.append_cancel_left front)
    omega
  · simp at front
  · simp at front
  · have hours := Text.padded_injective (List.append_cancel_left front)
    omega

/-! ## Parts of a moment -/

/-- What a text can show of a moment and its zone. -/
inductive StampPart where
  | year | month | day | hour | minute | second | milli | zone
  deriving DecidableEq, Repr

def ZonedMoment.part (z : ZonedMoment) : StampPart → Int
  | .year => z.wall.date.year
  | .month => z.wall.date.month
  | .day => z.wall.date.day
  | .hour => z.wall.hour
  | .minute => z.wall.minute
  | .second => z.wall.second
  | .milli => z.wall.milli
  | .zone => z.offset

theorem ZonedMoment.eq_of_parts {z z' : ZonedMoment} (same : ∀ part, z.part part = z'.part part) : z = z' := by
  have date : z.wall.date = z'.wall.date := by
    have year := same .year
    have month := Int.ofNat.inj (same .month)
    have day := Int.ofNat.inj (same .day)
    revert year month day
    unfold part
    cases z.wall.date
    cases z'.wall.date
    rintro rfl rfl rfl
    rfl
  have wall := Moment.eq_of_parts date (Int.ofNat.inj (same .hour)) (Int.ofNat.inj (same .minute))
    (Int.ofNat.inj (same .second)) (Int.ofNat.inj (same .milli))
  have offset := same .zone
  cases z
  cases z'
  cases wall
  cases offset
  rfl

/-- A year of four characters, and less than a day between the clocks. -/
structure ZonedMoment.Plain (z : ZonedMoment) : Prop where
  year : -999 ≤ z.wall.date.year ∧ z.wall.date.year ≤ 9999
  zone : z.offset.natAbs < 1440

/-- The part that a token shows whole in its place. -/
def DateToken.part? (t : DateToken) (before after : List DatePiece) : Option StampPart :=
  match t.field with
  | .year => some .year
  | .monthOrMinute => some (if readsAsMinutes before after then .minute else .month)
  | .day => some .day
  | .hour => some .hour
  | .second => some .second
  | .milli => some .milli
  | .zone => some .zone
  | .shortYear | .monthName | .monthAbbreviation | .halfDayHour | .half | .capitalHalf | .utcMark => none

/-- Whether a token writes as many characters for each plain moment. -/
def DateToken.isEven (t : DateToken) : Bool :=
  match t.field with
  | .monthOrMinute | .day | .hour | .halfDayHour | .second => t.padded
  | .monthName | .monthAbbreviation => false
  | .year | .shortYear | .milli | .half | .capitalHalf | .zone | .utcMark => true

def DatePiece.isEven : DatePiece → Bool
  | .literal _ => true
  | .token t _ => t.isEven

/-- The parts that pieces show; `before` holds the pieces before them, nearest first. -/
def shownParts (before : List DatePiece) : List DatePiece → List StampPart
  | [] => []
  | .literal cs :: after => shownParts (.literal cs :: before) after
  | .token t offset :: after =>
    (t.part? before after).toList ++ shownParts (.token t offset :: before) after

/-- A format that shows every part, in tokens that keep their width. -/
structure Complete (format : String) : Prop where
  even : ∀ p ∈ datePieces format.toList, p.isEven = true
  whole : ∀ part, part ∈ shownParts [] (datePieces format.toList)

/-! ## Reading texts back -/

/-- How dates are written in a zone. -/
def DateSettings.inZone (s : DateSettings) (offset : Int) : DateSettings := { s with offset := offset }

variable {s : DateSettings} {z z' : ZonedMoment} {t : DateToken} {before after : List DatePiece}

/-- The number of characters of a token that keeps its width. -/
def DateToken.width (t : DateToken) (utc : Bool) : Nat :=
  match t.field with
  | .year => 4
  | .milli => 3
  | .zone => 5
  | .utcMark => if utc then 1 else 0
  | _ => 2

theorem write_length (even : t.isEven = true) (plain : z.Plain) :
    (t.write (s.inZone z.offset) z.wall before after).toList.length = t.width s.utc := by
  have number : ∀ n, t.padded = true → n < 100 →
      (Text.padded (if t.padded then 2 else 1) n).toList.length = 2 := by
    intro n padded small
    rw [if_pos padded]
    exact Text.padded_length (by omega) (by omega)
  have months := Date.ofDay_month z.wall.dayNumber
  have days := Date.ofDay_day z.wall.dayNumber
  have longest := Date.monthLength_le z.wall.date.year z.wall.date.month
  unfold DateToken.isEven at even
  unfold DateToken.write DateToken.width
  cases field : t.field <;> simp only [field] at even ⊢
  case year => exact yearText_length plain.year.1 plain.year.2
  case shortYear => exact Text.padded_length (by omega) (by omega)
  case monthName => cases even
  case monthAbbreviation => cases even
  case monthOrMinute =>
    refine number _ even ?_
    unfold Moment.date Moment.minute
    split <;> omega
  case day =>
    refine number _ even ?_
    unfold Moment.date at longest ⊢
    omega
  case hour => exact number _ even (by have := z.wall.hour_lt; omega)
  case halfDayHour =>
    refine number _ even ?_
    unfold hourOfHalf
    split <;> omega
  case second => exact number _ even (by unfold Moment.second; omega)
  case milli => exact Text.padded_length (by omega) (by unfold Moment.milli; omega)
  case half => split <;> rfl
  case capitalHalf => split <;> rfl
  case zone => exact zoneText_length plain.zone
  case utcMark => by_cases utc : s.utc = true <;> simp [DateSettings.inZone, utc]

/-- What shows a part is written alike only for moments that have it in common. -/
theorem write_part {part : StampPart} (shown : t.part? before after = some part)
    (same : (t.write (s.inZone z.offset) z.wall before after).toList =
      (t.write (s.inZone z'.offset) z'.wall before after).toList) :
    z.part part = z'.part part := by
  unfold DateToken.part? at shown
  unfold DateToken.write at same
  cases field : t.field <;> simp only [field] at shown same
  case year => cases shown; exact yearText_injective same
  case monthOrMinute =>
    cases shown
    have numbers := Text.padded_injective same
    unfold ZonedMoment.part
    split at numbers <;> simp_all
  case day => cases shown; exact congrArg Int.ofNat (Text.padded_injective same)
  case hour => cases shown; exact congrArg Int.ofNat (Text.padded_injective same)
  case second => cases shown; exact congrArg Int.ofNat (Text.padded_injective same)
  case milli => cases shown; exact congrArg Int.ofNat (Text.padded_injective same)
  case zone => cases shown; exact zoneText_injective same
  all_goals cases shown

/-- Texts of the same pieces agree token by token, and so on the parts that the tokens show. -/
theorem writePieces_parts (plain : z.Plain) (plain' : z'.Plain) : ∀ {ps before : List DatePiece},
    (∀ p ∈ ps, p.isEven = true) →
      writePieces (s.inZone z.offset) z.wall before ps = writePieces (s.inZone z'.offset) z'.wall before ps →
        ∀ part ∈ shownParts before ps, z.part part = z'.part part
  | [], _, _, _, _, member => nomatch member
  | .literal cs :: after, before, even, same, part, member => by
    have rest := List.append_cancel_left (show cs ++ _ = cs ++ _ from same)
    exact writePieces_parts plain plain' (fun p later => even p (.tail _ later)) rest part member
  | .token t offset :: after, before, even, same, part, member => by
    have kept : t.isEven = true := even _ (.head _)
    obtain ⟨here, rest⟩ := List.append_inj same ((write_length kept plain).trans (write_length kept plain').symm)
    rcases List.mem_append.mp member with shown | later
    · exact write_part (by simpa using shown) here
    · exact writePieces_parts plain plain' (fun p later => even p (.tail _ later)) rest part later

/-- What a format writes for a moment and its zone, without the offsets in it. -/
def written (s : DateSettings) (format : String) (z : ZonedMoment) : String :=
  .ofList (writePieces (s.inZone z.offset) z.wall [] (datePieces format.toList))

/-- What a complete format writes can be read in one way. -/
theorem written_injective {format : String} (complete : Complete format) (plain : z.Plain)
    (plain' : z'.Plain) (same : written s format z = written s format z') : z = z' := by
  apply ZonedMoment.eq_of_parts
  intro part
  have chars := String.ofList_injective same
  exact writePieces_parts plain plain' complete.even chars part (complete.whole part)

theorem formatDate_ok_iff {m : Moment} {format text : String} : formatDate s m format = .ok text ↔
    ∃ r, applyOffsets (datePieces format.toList) m = some r ∧ text = written s format ⟨r, s.offset⟩ := by
  unfold formatDate
  dsimp only
  cases applied : applyOffsets (datePieces format.toList) m with
  | none => simp
  | some r => simp [written, DateSettings.inZone, eq_comm]

/-! ## Formats without offsets -/

theorem Offsets.add_nothing (u : DateUnit) : Offsets.zero.add u (offsetValue []) = .zero := by
  cases u <;> decide

theorem collectOffsets_bare : ∀ (ps : List DatePiece) (hour : Bool) (last : Option DatePiece),
    (∀ t offset, .token t offset ∈ ps → offset = []) → collectOffsets hour last .zero ps = .zero
  | [], _, _, _ => rfl
  | .literal _ :: after, hour, _, bare =>
    collectOffsets_bare after hour _ fun t offset later => bare t offset (.tail _ later)
  | .token t offset :: after, hour, last, bare => by
    obtain rfl := bare t offset (.head _)
    rw [collectOffsets]
    split
    · rw [Offsets.add_nothing]
      exact collectOffsets_bare after _ _ fun t offset later => bare t offset (.tail _ later)
    · exact collectOffsets_bare after _ _ fun t offset later => bare t offset (.tail _ later)

/-- Without offsets a moment is written as it is. -/
theorem applyOffsets_bare {ps : List DatePiece} {m : Moment}
    (bare : ∀ t offset, .token t offset ∈ ps → offset = []) (inside : m.inRange = true) :
    applyOffsets ps m = some m := by
  unfold applyOffsets
  rw [collectOffsets_bare ps false none bare]
  simp [Offsets.shift?, Offsets.zero, Moment.addMonths?, twoTo, Moment.shiftMonths?_zero inside,
    Moment.shift?_zero inside]

/-! ## The clock of dates -/

/-- The instant that a moment of the clock of dates stands for: as far from the present one as the moment
is from what the clock shows. -/
def Options.instant (o : Options) (now : ZonedMoment) (m : Moment) : Moment :=
  ⟨now.utc.millis + (m.millis - (o.dates now).now.millis)⟩

/-- What a date call writes is a date in some format. -/
theorem renderCall_formats {s : DateSettings} {inner : List Char} {d d' : Dice} {text : String}
    (done : renderCall s inner d = (.ok text, d')) : ∃ m format, formatDate s m format = .ok text := by
  unfold renderCall at done
  dsimp only at done
  obtain ⟨base, d₁, _, done⟩ := Act.bind_eq_ok done
  cases base with
  | some m => exact ⟨m, _, congrArg Prod.fst done⟩
  | none =>
    obtain ⟨m, d₂, _, done⟩ := Act.bind_eq_ok done
    exact ⟨m, _, congrArg Prod.fst done⟩

/-- Dates tell true instants, at a reading of the clock. -/
structure TellsTrue (o : Options) (now : ZonedMoment) : Prop where
  /-- What the clock of dates shows, less its offset, is the present instant. -/
  clock : (o.dates now).now.millis - (o.dates now).offset * 60000 = now.utc.millis
  /-- What a date call writes is how its format writes the instant of a moment in some zone. -/
  rendered : ∀ inner d text d', renderCall (o.dates now) inner d = (.ok text, d') →
    ∃ m format r z, applyOffsets (datePieces format.toList) m = some r ∧ z.utc = o.instant now r ∧
      text = written (o.dates now) format z
  /-- No other instant is written so, if the format is complete. -/
  names : ∀ format m text r z, Complete format → formatDate (o.dates now) m format = .ok text →
    applyOffsets (datePieces format.toList) m = some r → ZonedMoment.Plain ⟨r, (o.dates now).offset⟩ →
      z.Plain → text = written (o.dates now) format z → z.utc = o.instant now r
  zone : o.utc = true → ∀ m : Moment, m.inRange = true → formatDate (o.dates now) m "TZ" = .ok "+0000"

theorem zone_only : datePieces "TZ".toList = [.token ⟨['T', 'Z'], .zone, false⟩ []] := by
  decide +kernel

/-- The zone is written as the offset of the local clock, whatever the clock of dates is. -/
theorem formatDate_zone {s : DateSettings} {m : Moment} (inside : m.inRange = true) :
    formatDate s m "TZ" = .ok (zoneText s.offset) := by
  have applied : applyOffsets (datePieces "TZ".toList) m = some m := by
    rw [zone_only]
    exact applyOffsets_bare (by simp) inside
  rw [formatDate_ok_iff]
  refine ⟨m, applied, ?_⟩
  unfold written
  rw [zone_only]
  simp [writePieces, DateToken.write, DateSettings.inZone]

/-- A complete text names its moment in the zone that it writes. -/
theorem names_shown {o : Options} {now : ZonedMoment} {format text : String} {m r : Moment} {z : ZonedMoment}
    (complete : Complete format) (done : formatDate (o.dates now) m format = .ok text)
    (applied : applyOffsets (datePieces format.toList) m = some r)
    (plain : ZonedMoment.Plain ⟨r, (o.dates now).offset⟩) (plain' : z.Plain)
    (read : text = written (o.dates now) format z) : z = ⟨r, (o.dates now).offset⟩ := by
  obtain ⟨r', applied', same⟩ := formatDate_ok_iff.mp done
  cases applied.symm.trans applied'
  exact written_injective complete plain' plain (read.symm.trans same)

theorem instant_shown (o : Options) (now : ZonedMoment) (m : Moment) :
    (ZonedMoment.mk m (o.dates now).offset).utc.millis = (o.instant now m).millis - (if o.utc then now.offset * 60000 else 0) := by
  unfold ZonedMoment.utc Options.instant Options.dates
  dsimp only
  split
  · simp only [ZonedMoment.utc]
    omega
  · simp only [ZonedMoment.utc]
    omega

theorem tellsTrue_of_agreeing {o : Options} {now : ZonedMoment}
    (agreeing : o.utc = false ∨ now.offset = 0) : TellsTrue o now := by
  have same (m : Moment) : (ZonedMoment.mk m (o.dates now).offset).utc = o.instant now m := by
    have shown := instant_shown o now m
    have nothing : (if o.utc then now.offset * 60000 else 0) = 0 := by
      rcases agreeing with off | zero
      · simp [off]
      · simp [zero]
    rw [nothing, Int.sub_zero] at shown
    exact congrArg Moment.mk shown
  constructor
  case clock =>
    have present := congrArg Moment.millis (same (o.dates now).now)
    simpa [ZonedMoment.utc, Options.instant] using present
  case rendered =>
    intro inner d text d' done
    obtain ⟨m, format, formatted⟩ := renderCall_formats done
    obtain ⟨r, applied, text⟩ := formatDate_ok_iff.mp formatted
    exact ⟨m, format, r, _, applied, same r, text⟩
  case names =>
    intro format m text r z complete formatted applied plain plain' read
    rw [names_shown complete formatted applied plain plain' read, same r]
  case zone =>
    intro universal m inside
    have zero : now.offset = 0 := by
      rcases agreeing with off | zero
      · cases off.symm.trans universal
      · exact zero
    have offset : (o.dates now).offset = 0 := zero
    have text : zoneText 0 = "+0000" := by decide
    rw [formatDate_zone inside, offset, text]

/-- Dates tell true instants exactly where they are not in universal time, or the local clock shows it
anyway. In universal time every complete text is wrong by the offset of the local clock. -/
theorem tellsTrue_iff (o : Options) (now : ZonedMoment) : (TellsTrue o now ↔ o.utc = false ∨ now.offset = 0) ∧
    ∀ format m text r z, Complete format → formatDate (o.dates now) m format = .ok text →
      applyOffsets (datePieces format.toList) m = some r → ZonedMoment.Plain ⟨r, (o.dates now).offset⟩ →
        z.Plain → text = written (o.dates now) format z →
          z.utc.millis = (o.instant now r).millis - (if o.utc then now.offset * 60000 else 0) := by
  refine ⟨⟨fun tells => ?_, tellsTrue_of_agreeing⟩, ?_⟩
  · have clock := tells.clock
    unfold Options.dates ZonedMoment.utc at clock
    by_cases universal : o.utc = true
    · simp only [universal, ↓reduceIte] at clock
      omega
    · exact .inl (by simpa using universal)
  · intro format m text r z complete formatted applied plain plain' read
    rw [names_shown complete formatted applied plain plain' read]
    exact instant_shown o now r

/-- Dates in universal time, or else in that of the local clock. -/
def datesIn (utc : Bool) : Options := ⟨.ptBr, utc, none, none⟩

/-- An evening three hours west of universal time, where it is the next day. -/
def evening : ZonedMoment := ⟨⟨1710540000000⟩, -180⟩

/-- In universal time that evening is still written with the zone of the local clock. -/
theorem evening_misleads : ¬ TellsTrue (datesIn true) evening := by
  intro tells
  have inside : ((datesIn true).dates evening).now.inRange = true := by decide
  have zone := tells.zone rfl _ inside
  rw [formatDate_zone inside] at zone
  have text : zoneText ((datesIn true).dates evening).offset ≠ "+0000" := by decide
  exact text (Except.ok.inj zone)

def stampFormat : String := "yyyy-MM-dd HH:mm:ss.SSS TZ"

theorem stampFormat_complete : Complete stampFormat where
  even := by decide +kernel
  whole part := by cases part <;> decide +kernel

/-- The local evening is told as it is; in universal time it is written as three hours later. -/
theorem evening_told : TellsTrue (datesIn false) evening ∧ Complete stampFormat ∧
    formatDate ((datesIn true).dates evening) ((datesIn true).dates evening).now stampFormat =
      .ok "2024-03-16 01:00:00.000 -0300" ∧
    (ZonedMoment.mk ((datesIn true).dates evening).now (-180)).utc.millis =
      ((datesIn true).instant evening ((datesIn true).dates evening).now).millis + 180 * 60000 := by
  have told : formatDate ((datesIn true).dates evening) ((datesIn true).dates evening).now stampFormat =
      .ok "2024-03-16 01:00:00.000 -0300" := eq_ok_of_toOption (by decide +kernel)
  have plain : ZonedMoment.Plain ⟨((datesIn true).dates evening).now, -180⟩ := ⟨by decide, by decide⟩
  refine ⟨(tellsTrue_iff _ _).1.mpr (.inl rfl), stampFormat_complete, told, ?_⟩
  exact (tellsTrue_iff (datesIn true) evening).2 _ _ _ _ _ stampFormat_complete told (by decide +kernel) plain plain
    (by decide +kernel)

end Dynamic
end PageSpec
