import Mathlib.Data.List.Chain
import PageSpec.Proofs.Dynamic.Places
import PageSpec.Proofs.Text.Cutting
/-!
The longest tokens of a format. At every place the longest token that fits is taken, with the signed digits right
behind it, and what lies between two tokens stays together. These rules leave no choice: a format has one row of
pieces that follows them, and it is read as that row.
-/
namespace PageSpec.Dynamic

/-! ## Rules -/

def DatePiece.isLiteral : DatePiece → Bool
  | .literal _ => true
  | .token _ _ => false

def IsSign (c : Char) : Prop := c = '+' ∨ c = '-'

/-- An offset by the text behind it: a sign and all the digits that follow it, or nothing where no sign stands or
no digit follows the sign. -/
inductive OffsetBefore : List Char → List Char → Prop
  | none {back : List Char} (bare : ∀ sign digit more, back = sign :: digit :: more → IsSign sign →
      Text.isDigit digit = false) : OffsetBefore [] back
  | some {sign : Char} {digits back : List Char} (signed : IsSign sign) (some_ : digits ≠ [])
      (run : ∀ d ∈ digits, Text.isDigit d = true) (stop : ∀ d ∈ back.head?, Text.isDigit d = false) :
      OffsetBefore (sign :: digits) back

/-- A piece by the text behind it. No token fits anywhere inside a literal, and no longer one fits where a token
stands. -/
inductive DatePiece.StandsBefore : DatePiece → List Char → Prop
  | literal {text back : List Char} (some_ : text ≠ [])
      (dull : ∀ front rest, text = front ++ rest → rest ≠ [] → ∀ t ∈ dateTokens, ¬ t.text <+: rest ++ back) :
      StandsBefore (.literal text) back
  | token {t : DateToken} {offset back : List Char} (known : t ∈ dateTokens)
      (longest : ∀ u ∈ dateTokens, u.text <+: t.text ++ (offset ++ back) → u.text.length ≤ t.text.length)
      (digits : OffsetBefore offset back) : StandsBefore (.token t offset) back

/-- How a format falls into pieces. -/
structure Tokenized (format : List Char) (ps : List DatePiece) : Prop where
  lossless : ps.flatMap DatePiece.raw = format
  apart : ps.IsChain fun p q => ¬ (p.isLiteral = true ∧ q.isLiteral = true)
  stands : ∀ before p after, ps = before ++ p :: after → p.StandsBefore (after.flatMap DatePiece.raw)

/-! ## Rows of pieces -/

theorem tokenized_nil_iff {format : List Char} : Tokenized format [] ↔ format = [] := by
  constructor
  · intro tokenized
    exact tokenized.lossless.symm
  · rintro rfl
    exact ⟨rfl, .nil, fun before p after split => by simp at split⟩

theorem tokenized_cons_iff {format : List Char} {p : DatePiece} {ps : List DatePiece} :
    Tokenized format (p :: ps) ↔ ∃ rest, format = p.raw ++ rest ∧ p.StandsBefore rest ∧
      (∀ q ∈ ps.head?, ¬ (p.isLiteral = true ∧ q.isLiteral = true)) ∧ Tokenized rest ps := by
  constructor
  · rintro ⟨lossless, apart, stands⟩
    rw [List.isChain_cons] at apart
    refine ⟨ps.flatMap DatePiece.raw, lossless.symm, stands [] p ps rfl, apart.1, rfl, apart.2, ?_⟩
    intro before q after split
    exact stands (p :: before) q after (congrArg (p :: ·) split)
  · rintro ⟨rest, rfl, here, apart, lossless, chain, stands⟩
    subst lossless
    refine ⟨rfl, List.isChain_cons.mpr ⟨apart, chain⟩, fun before q after split => ?_⟩
    rcases List.cons_eq_append_iff.mp split with ⟨rfl, same⟩ | ⟨before', rfl, later⟩
    · cases same
      exact here
    · exact stands before' q after later

/-! ## Offsets -/

theorem signedDigits_before (cs : List Char) : OffsetBefore (signedDigits cs) (cs.drop (signedDigits cs).length) := by
  cases cs with
  | nil => exact .none (fun sign digit more split => by simp [signedDigits] at split)
  | cons c r =>
    unfold signedDigits
    dsimp only
    have behind : r.drop (r.takeWhile Text.isDigit).length = r.dropWhile Text.isDigit := by
      conv => lhs; arg 2; rw [← List.takeWhile_append_dropWhile (p := Text.isDigit) (l := r)]
      exact List.drop_left
    split
    · rename_i signed
      rw [List.length_cons, List.drop_succ_cons, behind]
      refine .some signed.1 (by simpa using signed.2) (fun d => List.mem_takeWhile_imp) ?_
      intro d first
      rcases Text.dropWhile_nil_or (p := Text.isDigit) r with nothing | ⟨e, more, rest, other⟩
      · rw [nothing] at first
        cases first
      · rw [rest] at first
        cases first
        exact other
    · rename_i other
      refine .none fun sign digit more split signed => ?_
      cases split
      cases is : Text.isDigit digit with
      | false => rfl
      | true => exact absurd ⟨signed, by simp [is]⟩ other

/-- An offset is determined by the text from it on. -/
theorem OffsetBefore.unique {offset offset' back back' : List Char} (first : OffsetBefore offset back)
    (second : OffsetBefore offset' back') (same : offset ++ back = offset' ++ back') :
    offset = offset' ∧ back = back' := by
  cases first with
  | none bare =>
    cases second with
    | none => exact ⟨rfl, same⟩
    | @some sign digits _ signed some_ run =>
      obtain ⟨d, more, rfl⟩ := List.exists_cons_of_ne_nil some_
      cases (bare sign d _ same signed).symm.trans (run d (.head _))
  | @some sign digits _ signed some_ run stop =>
    cases second with
    | none bare =>
      obtain ⟨d, more, rfl⟩ := List.exists_cons_of_ne_nil some_
      cases (bare sign d _ same.symm signed).symm.trans (run d (.head _))
    | @some sign' digits' _ signed' some_' run' stop' =>
      obtain ⟨rfl, behind⟩ : sign = sign' ∧ digits ++ back = digits' ++ back' := List.cons.inj same
      obtain ⟨front, rest⟩ := Text.run_stops run stop
      obtain ⟨front', rest'⟩ := Text.run_stops run' stop'
      rw [behind] at front rest
      exact ⟨congrArg _ (front.symm.trans front'), rest.symm.trans rest'⟩

/-! ## Tokens -/

theorem dateTokens_descend : dateTokens.Pairwise fun t u => u.text.length ≤ t.text.length := by decide

theorem eq_of_text : ∀ t ∈ dateTokens, ∀ u ∈ dateTokens, t.text = u.text → t = u := by decide

/-- The first token that fits is the longest one, since the table goes from long tokens to short ones. -/
theorem longest_of_find? {cs : List Char} {t : DateToken}
    (found : dateTokens.find? (·.text.isPrefixOf cs) = some t) :
    ∀ u ∈ dateTokens, u.text <+: cs → u.text.length ≤ t.text.length := by
  obtain ⟨_, earlier, later, table, unfit⟩ := List.find?_eq_some_iff_append.mp found
  have descend := dateTokens_descend
  intro u known fits
  rw [table] at known descend
  rcases List.mem_append.mp known with before | here
  · have tried := unfit u before
    rw [List.isPrefixOf_iff_prefix.mpr fits] at tried
    cases tried
  · rcases List.mem_cons.mp here with rfl | behind
    · exact Nat.le_refl _
    · exact (List.pairwise_cons.mp (List.pairwise_append.mp descend).2.1).1 u behind

/-- Two longest tokens of a text are the same one. -/
theorem eq_of_longest {t u : DateToken} {cs : List Char} (known : t ∈ dateTokens) (known' : u ∈ dateTokens)
    (fits : t.text <+: cs) (fits' : u.text <+: cs)
    (longest : ∀ v ∈ dateTokens, v.text <+: cs → v.text.length ≤ t.text.length)
    (longest' : ∀ v ∈ dateTokens, v.text <+: cs → v.text.length ≤ u.text.length) : t = u := by
  have size : t.text.length = u.text.length :=
    Nat.le_antisymm (longest' t known fits) (longest u known' fits')
  exact eq_of_text t known u known' ((List.prefix_of_prefix_length_le fits fits' (Nat.le_of_eq size)).eq_of_length size)

/-! ## Pushing -/

/-- A character at which no token fits joins the literal behind it, or becomes one. -/
theorem Tokenized.push {c : Char} {rest : List Char} {ps : List DatePiece} (tokenized : Tokenized rest ps)
    (dull : ∀ t ∈ dateTokens, ¬ t.text <+: c :: rest) : Tokenized (c :: rest) (pushLiteral c ps) := by
  have alone : (∀ q ∈ ps.head?, q.isLiteral = false) → Tokenized (c :: rest) (.literal [c] :: ps) := by
    intro other
    refine tokenized_cons_iff.mpr ⟨rest, rfl, .literal (List.cons_ne_nil _ _) ?_, ?_, tokenized⟩
    · intro front more split some_
      rcases List.cons_eq_append_iff.mp split with ⟨rfl, rfl⟩ | ⟨front', rfl, nothing⟩
      · exact dull
      · exact absurd (List.append_eq_nil_iff.mp nothing.symm).2 some_
    · rintro q first ⟨_, literal⟩
      cases (other q first).symm.trans literal
  cases ps with
  | nil => exact alone nofun
  | cons p ps =>
    cases p with
    | token t offset => exact alone (by rintro _ ⟨⟩; rfl)
    | literal text =>
      obtain ⟨back, rfl, stands, apart, later⟩ := tokenized_cons_iff.mp tokenized
      refine tokenized_cons_iff.mpr ⟨back, rfl, ?_, apart, later⟩
      cases stands with
      | literal some_ inside =>
        refine .literal (List.cons_ne_nil _ _) fun front more split more_ => ?_
        rcases List.cons_eq_append_iff.mp split with ⟨rfl, rfl⟩ | ⟨front', rfl, split'⟩
        · exact dull
        · exact inside front' more split' more_

theorem fits_of_raw {t : DateToken} {offset rest : List Char} :
    t.text <+: (DatePiece.token t offset).raw ++ rest :=
  ⟨offset ++ rest, (List.append_assoc _ _ _).symm⟩

/-- Where no token fits, a row of pieces begins with a literal, which is what the first character is pushed onto. -/
theorem Tokenized.pushed {c : Char} {rest : List Char} {ps : List DatePiece} (tokenized : Tokenized (c :: rest) ps)
    (dull : ∀ t ∈ dateTokens, ¬ t.text <+: c :: rest) : ∃ qs, Tokenized rest qs ∧ ps = pushLiteral c qs := by
  cases ps with
  | nil => cases tokenized_nil_iff.mp tokenized
  | cons p ps =>
    obtain ⟨back, whole, stands, apart, later⟩ := tokenized_cons_iff.mp tokenized
    cases stands with
    | token known => exact absurd (whole ▸ fits_of_raw) (dull _ known)
    | @literal text _ some_ inside =>
      obtain ⟨d, more, rfl⟩ := List.exists_cons_of_ne_nil some_
      obtain ⟨rfl, behind⟩ : c = d ∧ rest = more ++ back := List.cons.inj whole
      cases more with
      | nil =>
        obtain rfl : rest = back := behind
        refine ⟨ps, later, ?_⟩
        cases ps with
        | nil => rfl
        | cons q ps =>
          cases q with
          | token t offset => rfl
          | literal text => exact absurd ⟨rfl, rfl⟩ (apart _ rfl)
      | cons e more =>
        refine ⟨.literal (e :: more) :: ps, ?_, rfl⟩
        refine tokenized_cons_iff.mpr ⟨back, behind, .literal (List.cons_ne_nil _ _) ?_, apart, later⟩
        intro front others split
        exact inside (c :: front) others (congrArg (c :: ·) split)

/-! ## Reading -/

/-- What is left behind a token of the table and its offset is shorter. -/
theorem behind_token {t : DateToken} (known : t ∈ dateTokens) {cs : List Char} (some_ : cs ≠ []) (n : Nat) :
    ((cs.drop t.text.length).drop n).length < cs.length := by
  have letters := List.length_pos_iff.mpr (text_ne_nil t known)
  have size := List.length_pos_iff.mpr some_
  rw [List.length_drop, List.length_drop]
  omega

theorem fits_of_find? {t : DateToken} {cs : List Char}
    (found : dateTokens.find? (·.text.isPrefixOf cs) = some t) : t.text <+: cs := by
  have tried := List.find?_some found
  exact List.isPrefixOf_iff_prefix.mp tried

theorem not_fits_of_find? {cs : List Char} (none : dateTokens.find? (·.text.isPrefixOf cs) = none) :
    ∀ t ∈ dateTokens, ¬ t.text <+: cs := by
  intro t known fits
  have tried := List.find?_eq_none.mp none t known
  exact tried (List.isPrefixOf_iff_prefix.mpr fits)

theorem datePieces_follows (format : List Char) : Tokenized format (datePieces format) := by
  fun_induction datePieces format with
  | case1 => exact tokenized_nil_iff.mpr rfl
  | case2 c rest t found after offset next shorter ih =>
    have fits : t.text <+: c :: rest := fits_of_find? found
    have text : t.text ++ after = c :: rest := List.prefix_iff_eq_append.mp fits
    have digits : offset ++ next = after := List.prefix_iff_eq_append.mp (signedDigits_begins after)
    refine tokenized_cons_iff.mpr ⟨next, ?_, .token (List.mem_of_find?_eq_some found) ?_ (signedDigits_before after), ?_,
      ih⟩
    · rw [DatePiece.raw, List.append_assoc, digits, text]
    · rw [digits, text]
      exact longest_of_find? found
    · rintro q _ ⟨token, _⟩
      cases token
  | case3 c rest t found after offset next longer ih =>
    exact absurd (behind_token (List.mem_of_find?_eq_some found) (List.cons_ne_nil c rest) _) longer
  | case4 c rest none ih => exact ih.push (not_fits_of_find? none)

theorem Tokenized.eq_datePieces {format : List Char} {ps : List DatePiece} (tokenized : Tokenized format ps) :
    ps = datePieces format := by
  fun_induction datePieces format generalizing ps with
  | case1 =>
    cases ps with
    | nil => rfl
    | cons p ps =>
      obtain ⟨rest, whole, stands, _⟩ := tokenized_cons_iff.mp tokenized
      have nothing := (List.append_eq_nil_iff.mp whole.symm).1
      cases stands with
      | literal some_ => exact absurd nothing some_
      | token known => exact absurd (List.append_eq_nil_iff.mp nothing).1 (text_ne_nil _ known)
  | case2 c rest t found after offset next shorter =>
    rename_i ih
    have known : t ∈ dateTokens := List.mem_of_find?_eq_some found
    have fits : t.text <+: c :: rest := fits_of_find? found
    have text : t.text ++ after = c :: rest := List.prefix_iff_eq_append.mp fits
    have digits : offset ++ next = after := List.prefix_iff_eq_append.mp (signedDigits_begins after)
    cases ps with
    | nil => cases tokenized_nil_iff.mp tokenized
    | cons p ps =>
      obtain ⟨back, whole, stands, _, later⟩ := tokenized_cons_iff.mp tokenized
      cases stands with
      | @literal literal _ some_ dull =>
        have here : t.text <+: literal ++ back := whole ▸ fits
        exact absurd here (dull [] literal rfl some_ t known)
      | @token u offset' _ known' longest digits' =>
        rw [DatePiece.raw, List.append_assoc] at whole
        rw [← whole] at longest
        obtain rfl : t = u := eq_of_longest known known' fits ⟨offset' ++ back, whole.symm⟩
          (longest_of_find? found) longest
        have same : offset' ++ back = offset ++ next := by
          rw [digits]
          exact List.append_cancel_left (whole.symm.trans text.symm)
        obtain ⟨rfl, rfl⟩ := digits'.unique (signedDigits_before after) same
        rw [ih later]
  | case3 c rest t found after offset next longer =>
    exact absurd (behind_token (List.mem_of_find?_eq_some found) (List.cons_ne_nil c rest) _) longer
  | case4 c rest none ih =>
    obtain ⟨qs, later, rfl⟩ := tokenized.pushed (not_fits_of_find? none)
    rw [ih later]

/-- A format falls into pieces without loss, by the longest token at every place and with no token inside a
literal, and there is only one way to do so. -/
theorem datePieces_tokenized (format : List Char) :
    Tokenized format (datePieces format) ∧ ∀ ps, Tokenized format ps → ps = datePieces format :=
  ⟨datePieces_follows format, fun _ tokenized => tokenized.eq_datePieces⟩

/-- Five letters of a month, digits up to the next token, and a sign with no digit behind it. -/
def crowdedFormat : String := "MMMMM+12dd+-3 x"

/-- The fifth letter is a token of its own and takes the offset, and the lonely sign begins a literal. -/
theorem crowdedFormat_tokenized : Tokenized crowdedFormat.toList
      [.token ⟨['M', 'M', 'M', 'M'], .monthName, false⟩ [], .token ⟨['M'], .monthOrMinute, false⟩ ['+', '1', '2'],
        .token ⟨['d', 'd'], .day, true⟩ [], .literal ['+', '-', '3', ' ', 'x']] ∧
    ∀ ps, Tokenized crowdedFormat.toList ps → ps.length = 4 := by
  have read : datePieces crowdedFormat.toList =
      [.token ⟨['M', 'M', 'M', 'M'], .monthName, false⟩ [], .token ⟨['M'], .monthOrMinute, false⟩ ['+', '1', '2'],
        .token ⟨['d', 'd'], .day, true⟩ [], .literal ['+', '-', '3', ' ', 'x']] := by decide +kernel
  obtain ⟨follows, only⟩ := datePieces_tokenized crowdedFormat.toList
  rw [read] at follows only
  exact ⟨follows, fun ps tokenized => congrArg List.length (only ps tokenized)⟩

end PageSpec.Dynamic
