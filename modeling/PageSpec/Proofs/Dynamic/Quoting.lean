import PageSpec.Proofs.Bound
import PageSpec.Proofs.Dynamic.DayTexts
import PageSpec.Proofs.Dynamic.Offsets
import PageSpec.Proofs.Dynamic.Places
/-!
Formats between quotes. A quoted format is written as it stands, with its commas, quotes of the other kind and
outer blanks, but for one thing: a call ends at the first closing bracket, quoted or not. So a format is taken
as it is written exactly where it has no closing bracket.
-/
namespace PageSpec

namespace Dynamic

/-! ## Quotes -/

theorem unquoteFormat_quoted (format : List Char) : unquoteFormat ('"' :: (format ++ ['"'])) = format := by
  cases format with
  | nil => rfl
  | cons c cs =>
    have last : (c :: (cs ++ ['"'])).getLast? = some '"' := by
      rw [← List.cons_append, List.getLast?_concat]
    have others : (c :: (cs ++ ['"'])).dropLast = c :: cs := by
      rw [← List.cons_append, List.dropLast_concat]
    simp [unquoteFormat, last, others]

/-- A quote that is not closed belongs to the format. -/
theorem unquoteFormat_open {cs : List Char} (plain : '"' ∉ cs) : unquoteFormat ('"' :: cs) = '"' :: cs := by
  cases cs with
  | nil => rfl
  | cons c cs =>
    have other : (c :: cs).getLast? ≠ some '"' := fun last => plain (List.mem_of_getLast? last)
    simp [unquoteFormat, other]

/-! ## Written quotes -/

theorem quote_not_padded (width n : Nat) : '"' ∉ (Text.padded width n).toList := by
  intro member
  have digit := Text.isDigit_of_mem_padded member
  cases digit

theorem quote_not_name (l : Locale) (month : Nat) :
    '"' ∉ (l.longName month).toList ∧ '"' ∉ (l.shortName month).toList := by
  have names : ∀ name ∈ l.longNames ++ l.shortNames, '"' ∉ name.toList := by
    cases l <;> decide
  have nothing : '"' ∉ "".toList := by decide
  unfold Locale.longName Locale.shortName
  rw [List.getD_eq_getElem?_getD, List.getD_eq_getElem?_getD]
  constructor
  · cases found : l.longNames[month]? with
    | none => exact nothing
    | some name => exact names name (List.mem_append_left _ (List.mem_of_getElem? found))
  · cases found : l.shortNames[month]? with
    | none => exact nothing
    | some name => exact names name (List.mem_append_right _ (List.mem_of_getElem? found))

variable {s : DateSettings} {m : Moment}

/-- No token writes a quote. -/
theorem quote_not_token (t : DateToken) (before after : List DatePiece) :
    '"' ∉ (t.write s m before after).toList := by
  have digits := quote_not_padded
  have names := quote_not_name s.locale (m.date.month - 1)
  unfold DateToken.write
  cases t.field <;> dsimp only
  case year =>
    unfold yearText
    split <;> simp [digits]
  case monthName => exact names.1
  case monthAbbreviation => exact names.2
  case half => split <;> decide
  case capitalHalf => split <;> decide
  case zone =>
    unfold zoneText
    split <;> simp [digits]
  case utcMark => split <;> decide
  all_goals exact digits _ _

/-- A text has a quote only if its format has one. -/
theorem quote_not_written {format : List Char} {text : String} (plain : '"' ∉ format)
    (done : formatDate s m (.ofList format) = .ok text) : '"' ∉ text.toList := by
  obtain ⟨r, _, rfl⟩ := formatDate_ok_iff.mp done
  have pieces : ∀ p ∈ datePieces format, '"' ∉ p.raw := by
    intro p member quote
    apply plain
    rw [← datePieces_raw format]
    exact List.mem_flatMap.mpr ⟨p, member, quote⟩
  intro quote
  unfold written at quote
  rw [String.toList_ofList, String.toList_ofList, writePieces_places] at quote
  obtain ⟨x, place, quote⟩ := List.mem_flatMap.mp quote
  have split := mem_places place
  have here : x.piece ∈ datePieces format := by
    have member : x.piece ∈ [].reverse ++ datePieces format := by
      rw [split]
      simp
    simpa using member
  have own := pieces x.piece here
  unfold Place.write at quote
  split at quote
  · exact quote_not_token _ _ _ quote
  · rename_i text literal
    rw [literal] at own
    exact own quote

/-- A quote at the front of a format stands at the front of what is written. -/
theorem quote_written {format : List Char} {text : String}
    (done : formatDate s m (.ofList ('"' :: format)) = .ok text) : '"' ∈ text.toList := by
  obtain ⟨r, _, rfl⟩ := formatDate_ok_iff.mp done
  have none : dateTokens.find? (·.text.isPrefixOf ('"' :: format)) = none := by
    simp [dateTokens]
  have pieces : datePieces ('"' :: format) = pushLiteral '"' (datePieces format) := by
    rw [datePieces, none]
  unfold written
  rw [String.toList_ofList, String.toList_ofList, pieces]
  unfold pushLiteral
  split
  · simp [writePieces]
  · simp [writePieces]

/-! ## Failures -/

/-- Failing over no date out of range whose text has a closing bracket in it. -/
def closedFailures : Bound Dice where
  toDrift := .any
  May e := ∀ text : String, e = .mistake (.dateRange text) → ')' ∉ text.toList

theorem formatDate_closed {format : String} {e : Failure} (closed : ')' ∉ format.toList)
    (failed : formatDate s m format = .error e) : closedFailures.May e := by
  unfold formatDate at failed
  dsimp only at failed
  split at failed
  · cases failed
  · cases failed
    intro text same
    cases same
    exact closed

/-- A base that is refused is named as it is written. -/
theorem readBase_error {raw : List Char} {e : Failure} (failed : readBase s raw = .error e) :
    e = .mistake (.dateRange (.ofList raw)) ∨ e = .mistake (.dayOffset (.ofList raw)) ∨
      e = .mistake (.day (.ofList raw)) := by
  have ahead (days : Int) : (if minDay ≤ s.now.dayNumber + days ∧ s.now.dayNumber + days ≤ maxDay then
      .ok (some (.ofDay (s.now.dayNumber + days))) else .error (.mistake (.dateRange (.ofList raw))) :
        Except Failure (Option Moment)) = .error e → e = .mistake (.dateRange (.ofList raw)) := by
    intro failed
    split at failed
    · cases failed
    · cases failed
      rfl
  unfold readBase at failed
  split at failed
  · dsimp only at failed
    split at failed
    · exact .inl (ahead 0 failed)
    · split at failed
      · split at failed
        · exact .inl (ahead _ failed)
        · cases failed
          exact .inr (.inl rfl)
      · cases failed
  · split at failed
    · cases failed
    · split at failed
      · cases failed
      · cases failed
        exact .inr (.inr rfl)

theorem renderCall_closed {inner : List Char} (closed : ')' ∉ inner) :
    closedFailures.Holds (renderCall s inner) := by
  refine ⟨fun _ => trivial, fun d e failed => ?_⟩
  rw [renderCall_eq] at failed
  cases read : readBase s (baseText inner) with
  | error e' =>
    rw [read] at failed
    cases failed
    intro text same
    rcases readBase_error read with rfl | rfl | rfl
    · cases same
      rw [String.toList_ofList]
      exact fun member => closed (mem_of_mem_baseText member)
    · cases same
    · cases same
  | ok base =>
    rw [read] at failed
    cases base with
    | some m =>
      apply formatDate_closed _ failed
      intro member
      rcases mem_of_mem_formatText member with standard | own
      · revert standard
        decide
      · exact closed own
    | none =>
      apply formatDate_closed _ failed
      rw [String.toList_ofList]
      exact fun member => closed (Text.mem_of_mem_trimChars (mem_of_mem_unquoteFormat member))

theorem resolveCalls_closed (cs : List Char) : closedFailures.Holds (resolveCalls s cs) := by
  cases found : findCall cs with
  | none =>
    rw [resolveCalls_none found]
    exact .pure cs
  | some f =>
    have shorter := findCall_shorter found
    obtain ⟨rest, _, here⟩ := findCall_stands found
    obtain ⟨_, _, _, closed, _⟩ := callHere_eq_some_iff.mp here
    rw [resolveCalls_some found]
    refine .bind (renderCall_closed closed) fun text => ?_
    exact .bind (resolveCalls_closed f.after) fun rest => .pure _
termination_by cs.length
decreasing_by exact shorter

/-! ## Formats -/

/-- The text of a call with a day and a quoted format. -/
def quotedCall (day : Date) (format : List Char) : List Char :=
  dateCall (day.iso ++ ',' :: ' ' :: '"' :: (format ++ ['"']))

/-- A format is taken as it is written between the quotes. -/
def TakesVerbatim (s : DateSettings) (d : Dice) (day : Date) (format : List Char) : Prop :=
  resolveCalls s (quotedCall day format) d =
    ((formatDate s (.ofDay day.toDay) (.ofList format)).map String.toList, d)

variable {d : Dice} {day : Date} {format : List Char}

theorem takesVerbatim_of_closed (writable : day.Writable) (closed : ')' ∉ format) :
    TakesVerbatim s d day format := by
  have trimmed : Text.trimChars (' ' :: '"' :: (format ++ ['"'])) = '"' :: (format ++ ['"']) := by
    rw [Text.trimChars_blank (by decide)]
    unfold Text.trimChars
    rw [Text.trimStart_cons (by decide), ← List.cons_append, Text.trimEnd_concat (by decide)]
  have inside : ')' ∉ ' ' :: '"' :: (format ++ ['"']) := by simp [closed]
  unfold TakesVerbatim quotedCall
  rw [day.iso_baseText.resolveCalls_format (writable.readBase s) inside, trimmed, unquoteFormat_quoted]

/-- A call is cut off at the first closing bracket of its format, and the quote stays open. -/
theorem resolveCalls_cut (writable : day.Writable) {front : List Char} (plain : '"' ∉ front)
    (closed : ')' ∉ front) (back : List Char) :
    ∃ cut, resolveCalls s (quotedCall day (front ++ ')' :: back)) = (do
      let text ← (fun d => (formatDate s (.ofDay day.toDay) (.ofList ('"' :: cut)), d) : Roll String)
      let rest ← resolveCalls s (back ++ ['"', ')'])
      return text.toList ++ rest) := by
  have text := day.iso_baseText
  have trimmed : Text.trimChars (' ' :: '"' :: front) = '"' :: Text.trimEnd front := by
    rw [Text.trimChars_blank (by decide)]
    unfold Text.trimChars
    rw [Text.trimStart_cons (by decide), Text.trimEnd_cons (by decide)]
  have open_ : '"' ∉ Text.trimEnd front := fun member => plain (Text.mem_of_mem_trimEnd member)
  have here : callHere (quotedCall day (front ++ ')' :: back)) =
      some (day.iso ++ ',' :: ' ' :: '"' :: front, back ++ ['"', ')']) := by
    apply callHere_eq_some_iff.mpr
    refine ⟨_, ⟨['d', 'a', 't', 'e'], [], by decide, nofun, rfl⟩, by simp, ?_, ?_⟩
    · simp [text.absent.2, closed]
    · simp [quotedCall, dateCall]
  refine ⟨Text.trimEnd front, ?_⟩
  rw [resolveCalls_some (findCall_here here)]
  have rendered : renderCall s (day.iso ++ ',' :: ' ' :: '"' :: front) =
      fun d => (formatDate s (.ofDay day.toDay) (.ofList ('"' :: Text.trimEnd front)), d) := by
    funext d
    rw [text.renderCall_format (writable.readBase s), trimmed, unquoteFormat_open open_]
  dsimp only
  rw [rendered]
  rfl

/-- Whatever comes of a format with a closing bracket in it, it is not the format as it is written: the text
begins with the open quote, and a failure names no text with a closing bracket. -/
theorem not_takesVerbatim (writable : day.Writable) (plain : '"' ∉ format) (bracket : ')' ∈ format) :
    ¬ TakesVerbatim s d day format := by
  intro verbatim
  unfold TakesVerbatim at verbatim
  cases told : formatDate s (.ofDay day.toDay) (.ofList format) with
  | error e =>
    -- The failure would name the whole format, with its bracket.
    have failure : e = .mistake (.dateRange (.ofList format)) := by
      unfold formatDate at told
      dsimp only at told
      split at told
      · cases told
      · cases told
        rfl
    rw [told] at verbatim
    have may := (resolveCalls_closed _).2 d e (congrArg Prod.fst verbatim)
    have closed := may _ failure
    rw [String.toList_ofList] at closed
    exact closed bracket
  | ok text =>
    -- The quote that stays open would stand in a text that has none.
    rw [told] at verbatim
    have unquoted := quote_not_written plain told
    obtain ⟨front, back, rfl, closed⟩ := List.eq_append_cons_of_mem bracket
    have open_ : '"' ∉ front := fun member => plain (List.mem_append_left _ member)
    obtain ⟨cut, resolved⟩ := resolveCalls_cut (s := s) writable open_ closed back
    rw [resolved] at verbatim
    obtain ⟨first, d₁, written, rest⟩ := Act.bind_eq_ok verbatim
    obtain ⟨others, d₂, _, whole⟩ := Act.bind_eq_ok rest
    have quoted := quote_written (congrArg Prod.fst written)
    have same : first.toList ++ others = text.toList := Except.ok.inj (congrArg Prod.fst whole)
    rw [← same] at unquoted
    exact unquoted (List.mem_append_left _ quoted)

/-- A format between quotes is taken as it is written exactly where it has no closing bracket in it, whatever
else it has. -/
theorem takesVerbatim_iff (s : DateSettings) (d : Dice) {day : Date} {format : List Char}
    (writable : day.Writable) (plain : '"' ∉ format) : TakesVerbatim s d day format ↔ ')' ∉ format := by
  constructor
  · intro verbatim bracket
    exact not_takesVerbatim writable plain bracket verbatim
  · intro closed
    exact takesVerbatim_of_closed writable closed

/-- The octoberFifth of October 2025. -/
def octoberFifth : Date := ⟨2025, 10, 5⟩

theorem octoberFifth_writable : octoberFifth.Writable := ⟨⟨by decide, by decide⟩, by decide⟩

/-- A year in brackets loses the closing one to the call. -/
theorem bracketed_cut : (resolveCalls octoberDates (quotedCall octoberFifth "(yyyy)".toList) default).1 =
      .ok "\"(2025\")".toList ∧
    ¬ TakesVerbatim octoberDates default octoberFifth "(yyyy)".toList := by
  constructor
  · exact eq_ok_of_toOption (by decide +kernel)
  · exact not_takesVerbatim octoberFifth_writable (by decide) (by decide)

/-- Commas, quotes of the other kind, an opening bracket and blanks around them. -/
theorem quoted_taken : octoberFifth.Writable ∧ '"' ∉ " d, 'MM' (date(yy ".toList ∧
    TakesVerbatim octoberDates default octoberFifth " d, 'MM' (date(yy ".toList := by
  have plain : '"' ∉ " d, 'MM' (date(yy ".toList := by decide
  refine ⟨octoberFifth_writable, plain, ?_⟩
  exact (takesVerbatim_iff octoberDates default octoberFifth_writable plain).mpr (by decide)

end Dynamic
end PageSpec
