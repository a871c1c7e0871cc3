import PageSpec.Dynamic.DateFormat
/-!
Formats piece by piece. The pieces of a format make up its whole text, and each of them counts and is
written by what stands before and after it. What adds up the offsets and what writes the tokens keep track
of that in ways of their own, but a month token counts for the very field that it writes.
-/
namespace PageSpec.Dynamic

/-! ## Pieces -/

/-- A piece that a format can have: a text that is not empty, or a token of the table. -/
inductive DatePiece.Formed : DatePiece → Prop
  | literal (c : Char) (cs : List Char) : Formed (.literal (c :: cs))
  | token {t : DateToken} (offset : List Char) (known : t ∈ dateTokens) : Formed (.token t offset)

theorem text_ne_nil : ∀ t ∈ dateTokens, t.text ≠ [] := by decide

theorem DatePiece.Formed.raw_ne_nil {p : DatePiece} (formed : p.Formed) : p.raw ≠ [] := by
  cases formed with
  | literal c cs => exact List.cons_ne_nil c cs
  | token offset known => exact List.append_ne_nil_of_left_ne_nil (text_ne_nil _ known) offset

theorem signedDigits_begins (cs : List Char) : signedDigits cs <+: cs := by
  cases cs with
  | nil => exact List.prefix_refl []
  | cons c r =>
    unfold signedDigits
    dsimp only
    split
    · exact List.cons_prefix_cons.mpr ⟨rfl, List.takeWhile_prefix _⟩
    · exact List.nil_prefix

theorem pushLiteral_raw (c : Char) (ps : List DatePiece) :
    (pushLiteral c ps).flatMap DatePiece.raw = c :: ps.flatMap DatePiece.raw := by
  unfold pushLiteral
  split
  · rfl
  · rfl

theorem pushLiteral_formed {c : Char} {ps : List DatePiece} (formed : ∀ p ∈ ps, p.Formed) :
    ∀ p ∈ pushLiteral c ps, p.Formed := by
  unfold pushLiteral
  split
  · intro p member
    rcases List.mem_cons.mp member with rfl | later
    · exact .literal c _
    · exact formed p (.tail _ later)
  · intro p member
    rcases List.mem_cons.mp member with rfl | later
    · exact .literal c []
    · exact formed p later

/-- A format is the text of its pieces, one after another. -/
theorem datePieces_raw (cs : List Char) : (datePieces cs).flatMap DatePiece.raw = cs := by
  fun_induction datePieces cs with
  | case1 => rfl
  | case2 c rest t found after offset next shorter ih =>
    have fits : t.text <+: c :: rest := by
      have tried := List.find?_some found
      exact List.isPrefixOf_iff_prefix.mp tried
    have text : t.text ++ after = c :: rest := List.prefix_iff_eq_append.mp fits
    have digits : offset ++ next = after := List.prefix_iff_eq_append.mp (signedDigits_begins after)
    rw [List.flatMap_cons, ih, DatePiece.raw, List.append_assoc, digits, text]
  | case3 c rest t found after offset next shorter ih => rw [pushLiteral_raw, ih]
  | case4 c rest none ih => rw [pushLiteral_raw, ih]

theorem datePieces_formed (cs : List Char) : ∀ p ∈ datePieces cs, p.Formed := by
  fun_induction datePieces cs with
  | case1 => exact List.forall_mem_nil _
  | case2 c rest t found after offset next shorter ih =>
    exact List.forall_mem_cons.mpr ⟨.token offset (List.mem_of_find?_eq_some found), ih⟩
  | case3 c rest t found after offset next shorter ih => exact pushLiteral_formed ih
  | case4 c rest none ih => exact pushLiteral_formed ih

/-! ## Places -/

/-- A piece of a format with the pieces before it, nearest first, and those after it. -/
structure Place where
  before : List DatePiece
  piece : DatePiece
  after : List DatePiece
  deriving DecidableEq, Repr

/-- The places of pieces; `before` holds the pieces before them. -/
def places (before : List DatePiece) : List DatePiece → List Place
  | [] => []
  | p :: after => ⟨before, p, after⟩ :: places (p :: before) after

namespace Place

/-- The text of a format before a place. -/
def front (x : Place) : List Char := x.before.reverse.flatMap DatePiece.raw
/-- The text of a format after a place. -/
def back (x : Place) : List Char := x.after.flatMap DatePiece.raw

/-- The offset that is written at a place. -/
def offset (x : Place) : List Char :=
  match x.piece with
  | .token _ offset => offset
  | .literal _ => []

/-- The unit that an offset counts for at a place. -/
def unit? (x : Place) : Option DateUnit :=
  match x.piece with
  | .token t _ => t.field.unit? (readsAsMinutes x.before x.after)
  | .literal _ => none

/-- Counts the offset at a place. -/
def count (sums : Offsets) (x : Place) : Offsets :=
  match x.unit? with
  | some u => sums.add u (offsetValue x.offset)
  | none => sums

/-- What is written at a place. -/
def write (s : DateSettings) (m : Moment) (x : Place) : List Char :=
  match x.piece with
  | .token t _ => (t.write s m x.before x.after).toList
  | .literal text => text

end Place

theorem mem_places {x : Place} : ∀ {ps before : List DatePiece}, x ∈ places before ps →
    before.reverse ++ ps = x.before.reverse ++ x.piece :: x.after
  | p :: after, before, member => by
    rcases List.mem_cons.mp member with rfl | later
    · rfl
    · have split := mem_places later
      rwa [List.reverse_cons, List.append_assoc] at split

/-- The offsets are added up place by place: whether an hour came before and which piece was the last one
is all that matters about the pieces before. -/
theorem collectOffsets_places : ∀ (ps before : List DatePiece) (sums : Offsets),
    collectOffsets (before.any DatePiece.isHour) before.head? sums ps = (places before ps).foldl Place.count sums
  | [], _, _ => rfl
  | .literal text :: after, before, sums => by
    rw [places, List.foldl_cons, ← collectOffsets_places after]
    rfl
  | .token t offset :: after, before, sums => by
    rw [places, List.foldl_cons, ← collectOffsets_places after, List.any_cons, Bool.or_comm]
    rfl

theorem writePieces_places (s : DateSettings) (m : Moment) : ∀ ps before : List DatePiece,
    writePieces s m before ps = (places before ps).flatMap (Place.write s m)
  | [], _ => rfl
  | .literal text :: after, before => by
    rw [places, List.flatMap_cons, ← writePieces_places s m after]
    rfl
  | .token t offset :: after, before => by
    rw [places, List.flatMap_cons, ← writePieces_places s m after]
    rfl

/-! ## Neighbours -/

/-- The last character of some pieces is that of the piece that comes last. -/
theorem getLast?_front {before : List DatePiece} (formed : ∀ p ∈ before, p.Formed) :
    (before.reverse.flatMap DatePiece.raw).getLast? = before.head?.bind fun p => p.raw.getLast? := by
  cases before with
  | nil => rfl
  | cons p ps =>
    obtain ⟨c, last⟩ := Option.isSome_iff_exists.mp
      (List.getLast?_isSome.mpr (formed p (.head _)).raw_ne_nil)
    rw [List.reverse_cons, List.flatMap_append, List.flatMap_singleton, List.getLast?_append, last]
    exact last.symm

theorem head?_back {after : List DatePiece} (formed : ∀ p ∈ after, p.Formed) :
    (after.flatMap DatePiece.raw).head? = after.head?.bind fun p => p.raw.head? := by
  cases after with
  | nil => rfl
  | cons p ps =>
    obtain ⟨c, first⟩ := Option.isSome_iff_exists.mp
      (List.isSome_head?.mpr (formed p (.head _)).raw_ne_nil)
    rw [List.flatMap_cons, List.head?_append, first]
    exact first.symm

/-- The texts of the tokens of an hour. -/
def hourTexts : List (List Char) := [['H'], ['H', 'H'], ['h'], ['h', 'h']]

/-- The texts of the tokens of a month that may mean minutes. -/
def monthTexts : List (List Char) := [['M'], ['M', 'M'], ['m'], ['m', 'm']]

theorem isHour_iff : ∀ t ∈ dateTokens, t.isHour = true ↔ t.text ∈ hourTexts := by decide

theorem field_of_monthTexts : ∀ t ∈ dateTokens, t.text ∈ monthTexts →
    t.field = .monthOrMinute ∧ (if t.padded then 2 else 1) = t.text.length := by decide

/-- A time of day is suggested at a place: an hour token comes before it, or the character right before the
token or right after its offset is a colon. -/
def Place.SuggestsTime (x : Place) : Prop :=
  (∃ t offset, .token t offset ∈ x.before ∧ t.text ∈ hourTexts) ∨ x.front.getLast? = some ':' ∨
    x.back.head? = some ':'

theorem any_isHour_iff {ps : List DatePiece} (formed : ∀ p ∈ ps, p.Formed) :
    ps.any DatePiece.isHour = true ↔ ∃ t offset, .token t offset ∈ ps ∧ t.text ∈ hourTexts := by
  rw [List.any_eq_true]
  constructor
  · rintro ⟨p, member, hour⟩
    cases formed p member with
    | literal c cs => cases hour
    | token offset known => exact ⟨_, offset, member, (isHour_iff _ known).mp hour⟩
  · rintro ⟨t, offset, member, text⟩
    refine ⟨_, member, ?_⟩
    cases formed _ member with
    | token offset known => exact (isHour_iff t known).mpr text

theorem readsAsMinutes_iff {x : Place} (before : ∀ p ∈ x.before, p.Formed) (after : ∀ p ∈ x.after, p.Formed) :
    readsAsMinutes x.before x.after = true ↔ x.SuggestsTime := by
  unfold readsAsMinutes besideColon Place.SuggestsTime Place.front Place.back
  rw [getLast?_front before, head?_back after, ← any_isHour_iff before]
  simp

/-! ## Months and minutes -/

/-- The text of a date is made place by place, and so is the sum of its offsets. A month token counts for
the field that it writes, and these are the minutes exactly where a time of day is suggested. -/
theorem month_counts_as_written (s : DateSettings) (m : Moment) (format : String) :
    let all := places [] (datePieces format.toList)
    formatDate s m format = (match (all.foldl Place.count .zero).shift? m with
      | some r => .ok (.ofList (all.flatMap (Place.write s r)))
      | none => .error (.mistake (.dateRange format))) ∧
    ∀ x ∈ all, ∀ t offset, x.piece = .token t offset → t.text ∈ monthTexts →
      format.toList = x.front ++ (t.text ++ offset) ++ x.back ∧
      ∃ minutes : Bool, (minutes = true ↔ x.SuggestsTime) ∧
        (∀ sums, x.count sums = sums.add (if minutes then .minutes else .months) (offsetValue offset)) ∧
        ∀ r, x.write s r =
          (Text.padded t.text.length (if minutes then r.minute else r.date.month)).toList := by
  intro all
  constructor
  · unfold formatDate applyOffsets
    dsimp only
    have collected := collectOffsets_places (datePieces format.toList) [] .zero
    have written := fun r => writePieces_places s r (datePieces format.toList) []
    rw [show collectOffsets false none .zero (datePieces format.toList) = all.foldl Place.count .zero from
      collected]
    cases (all.foldl Place.count .zero).shift? m with
    | none => rfl
    | some r => exact congrArg (fun cs => Except.ok (String.ofList cs)) (written r)
  · intro x member t offset token text
    have split : datePieces format.toList = x.before.reverse ++ x.piece :: x.after := mem_places member
    have formed := datePieces_formed format.toList
    rw [split] at formed
    have before : ∀ p ∈ x.before, p.Formed := fun p inside =>
      formed p (List.mem_append_left _ (List.mem_reverse.mpr inside))
    have after : ∀ p ∈ x.after, p.Formed := fun p inside =>
      formed p (List.mem_append_right _ (.tail _ inside))
    have known : t ∈ dateTokens := by
      have here := formed x.piece (List.mem_append_right _ (.head _))
      rw [token] at here
      cases here with
      | token offset known => exact known
    obtain ⟨field, width⟩ := field_of_monthTexts t known text
    refine ⟨?_, readsAsMinutes x.before x.after, readsAsMinutes_iff before after, fun sums => ?_, fun r => ?_⟩
    · have whole := datePieces_raw format.toList
      rw [split, List.flatMap_append, List.flatMap_cons, token] at whole
      rw [← whole]
      simp [Place.front, Place.back, DatePiece.raw]
    · simp [Place.count, Place.unit?, Place.offset, token, field, DateField.unit?]
    · simp [Place.write, token, DateToken.write, field, width]

/-- Two alike tokens, of which the second stands behind an hour. -/
def monthThenTime : String := "MM-1 HH MM+5"

/-- Seven minutes past midnight, on the first of January. -/
def pastMidnight : Moment := ⟨420000⟩

/-- The first of them is a month and the second one minutes, offset and all. -/
theorem monthThenTime_decided :
    ∃ x ∈ places [] (datePieces monthThenTime.toList), ∃ y ∈ places [] (datePieces monthThenTime.toList),
      x.piece = .token ⟨['M', 'M'], .monthOrMinute, true⟩ ['-', '1'] ∧
      y.piece = .token ⟨['M', 'M'], .monthOrMinute, true⟩ ['+', '5'] ∧
      (x.count .zero = { Offsets.zero with months := -1 } ∧
        x.write ⟨pastMidnight, 0, .ptBr, false⟩ pastMidnight = ['0', '1']) ∧
      y.count .zero = { Offsets.zero with minutes := 5 } ∧
        y.write ⟨pastMidnight, 0, .ptBr, false⟩ pastMidnight = ['0', '7'] := by
  have pieces : datePieces monthThenTime.toList =
      [.token ⟨['M', 'M'], .monthOrMinute, true⟩ ['-', '1'], .literal [' '],
        .token ⟨['H', 'H'], .hour, true⟩ [], .literal [' '],
        .token ⟨['M', 'M'], .monthOrMinute, true⟩ ['+', '5']] := by decide +kernel
  obtain ⟨_, each⟩ := month_counts_as_written ⟨pastMidnight, 0, .ptBr, false⟩ pastMidnight monthThenTime
  rw [pieces] at each ⊢
  obtain ⟨_, first, time, counted, written⟩ := each _ (.head _) _ _ rfl (by decide)
  obtain ⟨_, second, time', counted', written'⟩ :=
    each _ (.tail _ (.tail _ (.tail _ (.tail _ (.head _))))) _ _ rfl (by decide)
  have none : first = false := by
    rw [← Bool.not_eq_true, time]
    rintro (⟨_, _, early, _⟩ | colon | colon)
    · cases early
    · cases colon
    · revert colon
      decide
  have hour : second = true := time'.mpr (.inl ⟨_, _, .tail _ (.head _), by decide⟩)
  subst none hour
  refine ⟨_, .head _, _, .tail _ (.tail _ (.tail _ (.tail _ (.head _)))), rfl, rfl, ⟨?_, ?_⟩, ?_, ?_⟩
  · rw [counted]
    decide
  · rw [written]
    decide +kernel
  · rw [counted']
    decide
  · rw [written']
    decide +kernel

end PageSpec.Dynamic
