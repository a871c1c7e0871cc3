import PageSpec.Proofs.Tokens.Pieces
/-!
Texts as bytes. A scanner that looks for braces and tokens byte by byte cuts a text at offsets into its bytes,
and such a cut fails inside a letter that takes more than one of them. It never comes to that: a token is made
of letters of one byte each, and no byte of any other letter looks like one of those.
-/
namespace PageSpec.Tokens

/-! ## Bytes and cuts -/

/-- The bytes of a letter, each taken for the character of its number. -/
def encode (c : Char) : List Char := (String.utf8EncodeChar c).map Char.ofUInt8

def bytes (cs : List Char) : List Char := cs.flatMap encode

/-- A text cut at an offset into its bytes. There is no cut inside a letter, nor behind the end. -/
def cut? : List Char → Nat → Option (List Char × List Char)
  | cs, 0 => some ([], cs)
  | [], _ + 1 => none
  | c :: cs, n + 1 =>
    if (encode c).length ≤ n + 1 then
      (cut? cs (n + 1 - (encode c).length)).map fun (front, back) => (c :: front, back)
    else none

theorem encode_pos (c : Char) : 0 < (encode c).length := by
  rw [encode, List.length_map, String.length_utf8EncodeChar]
  exact c.utf8Size_pos

theorem bytes_append (front back : List Char) : bytes (front ++ back) = bytes front ++ bytes back :=
  List.flatMap_append

theorem cut?_append (front back : List Char) : cut? (front ++ back) (bytes front).length = some (front, back) := by
  induction front with
  | nil => cases back <;> rfl
  | cons c front ih =>
    obtain ⟨n, size⟩ : ∃ n, (encode c).length = n + 1 := Nat.exists_eq_succ_of_ne_zero (encode_pos c).ne'
    have total : (bytes (c :: front)).length = n + (bytes front).length + 1 := by
      simp only [bytes, List.flatMap_cons, List.length_append, size]
      omega
    have behind : n + (bytes front).length + 1 - (n + 1) = (bytes front).length := by omega
    rw [List.cons_append, total, cut?, size, if_pos (by omega), behind, ih]
    rfl

theorem eq_of_cut? : ∀ {cs front back : List Char} {n : Nat}, cut? cs n = some (front, back) →
    cs = front ++ back ∧ (0 < n → front ≠ [])
  | cs, front, back, 0, found => by
    cases cs <;> cases found <;> exact ⟨rfl, nofun⟩
  | [], _, _, n + 1, found => nomatch found
  | c :: cs, front, back, n + 1, found => by
    unfold cut? at found
    split at found
    · obtain ⟨⟨front, back⟩, later, both⟩ := Option.map_eq_some_iff.mp found
      cases both
      exact ⟨by rw [(eq_of_cut? later).1, List.cons_append], fun _ => nofun⟩
    · cases found

theorem cut?_shorter {cs front back : List Char} {n : Nat} (found : cut? cs (n + 1) = some (front, back)) :
    back.length < cs.length := by
  obtain ⟨split, some_⟩ := eq_of_cut? found
  have front_pos := List.length_pos_iff.mpr (some_ n.succ_pos)
  rw [split, List.length_append]
  omega

/-! ## Letters of one byte -/

/-- These letters are their own byte. -/
def IsSmall (c : Char) : Prop := c.toNat < 128

instance (c : Char) : Decidable (IsSmall c) := inferInstanceAs (Decidable (_ < _))

section
variable {c d : Char} {front back cs : List Char}

theorem toNat_ofUInt8 (x : UInt8) : (Char.ofUInt8 x).toNat = x.toNat := UInt8.toNat_toUInt32 x

theorem encode_small (small : IsSmall c) : encode c = [c] := by
  unfold IsSmall at small
  have same : Char.ofUInt8 (UInt8.ofNat c.toNat) = c := by
    apply Char.toNat_inj.mp
    rw [toNat_ofUInt8, UInt8.toNat_ofNat']
    omega
  rw [encode, String.utf8EncodeChar, Char.toNat_val, if_pos (Nat.le_of_lt_succ small), List.map_singleton, same]

/-- Every byte of a longer letter lies in the other half. -/
theorem encode_large (large : ¬ IsSmall c) (member : d ∈ encode c) : ¬ IsSmall d := by
  unfold IsSmall at large ⊢
  obtain ⟨x, there, rfl⟩ := List.mem_map.mp member
  rw [toNat_ofUInt8]
  rw [String.utf8EncodeChar, Char.toNat_val, if_neg (by omega)] at there
  split_ifs at there <;>
  · simp only [List.mem_cons, List.not_mem_nil, or_false] at there
    rcases there with rfl | rfl | rfl | rfl <;> rw [UInt8.toNat_ofNat'] <;> omega

theorem eq_of_mem_encode (small : IsSmall d) (member : d ∈ encode c) : c = d := by
  by_cases same : IsSmall c
  · rw [encode_small same] at member
    exact (List.mem_singleton.mp member).symm
  · exact absurd small (encode_large same member)

theorem mem_bytes_iff (small : IsSmall d) : d ∈ bytes cs ↔ d ∈ cs := by
  rw [bytes, List.mem_flatMap]
  constructor
  · rintro ⟨c, there, member⟩
    exact eq_of_mem_encode small member ▸ there
  · intro there
    exact ⟨d, there, by rw [encode_small small]; exact List.mem_singleton_self d⟩

theorem bytes_small : ∀ {cs : List Char}, (∀ c ∈ cs, IsSmall c) → bytes cs = cs
  | [], _ => rfl
  | c :: cs, small => by
    have first : encode c = [c] := encode_small (small c List.mem_cons_self)
    have others : bytes cs = cs := bytes_small fun d member => small d (List.mem_cons_of_mem c member)
    rw [bytes, List.flatMap_cons, first]
    exact congrArg (c :: ·) others

/-- Where the bytes of a text begin with small letters, the text itself does. -/
theorem front_of_bytes : ∀ {front cs back : List Char}, (∀ c ∈ front, IsSmall c) → bytes cs = front ++ back →
    ∃ rest, cs = front ++ rest ∧ bytes rest = back
  | [], cs, _, _, same => ⟨cs, rfl, same⟩
  | d :: front, [], _, _, same => nomatch same
  | d :: front, c :: cs, back, small, same => by
    -- The first byte is that of a small letter, and no longer letter has such a byte.
    have member : d ∈ encode c := by
      obtain ⟨e, es, first⟩ := List.exists_cons_of_length_pos (encode_pos c)
      rw [bytes, List.flatMap_cons, first] at same
      rw [first, (List.cons.inj same).1]
      exact List.mem_cons_self
    have here : c = d := eq_of_mem_encode (small d List.mem_cons_self) member
    rw [bytes, List.flatMap_cons, here, encode_small (small d List.mem_cons_self)] at same
    obtain ⟨rest, split, others⟩ := front_of_bytes (fun e later => small e (List.mem_cons_of_mem d later))
      (List.cons.inj same).2
    exact ⟨rest, by rw [here, split, List.cons_append], others⟩

theorem isSmall_of_isWordChar (letter : isWordChar c = true) : IsSmall c := by
  unfold isWordChar Text.isAsciiAlnum Text.isAsciiLetter Text.isDigit at letter
  simp only [Bool.or_eq_true, Bool.and_eq_true, decide_eq_true_eq, beq_iff_eq, Char.le_def,
    UInt32.le_iff_toNat_le] at letter
  rcases letter with ((⟨_, high⟩ | ⟨_, high⟩) | ⟨_, high⟩) | rfl
  · exact lt_of_le_of_lt high (by decide)
  · exact lt_of_le_of_lt high (by decide)
  · exact lt_of_le_of_lt high (by decide)
  · decide

theorem Segment.small (s : Segment) (member : c ∈ s.chars) : IsSmall c := by
  rcases List.mem_append.mp member with sign | letter
  · cases lead : s.lead with
    | nothing => rw [lead] at sign; cases sign
    | dollar | hyphen =>
      rw [lead] at sign
      rw [List.mem_singleton.mp sign]
      decide
  · exact isSmall_of_isWordChar (s.word.run c letter)

theorem Token.small (t : Token) (member : c ∈ t.body ++ ['}']) : IsSmall c := by
  simp only [Token.body, List.mem_append, List.mem_flatMap, List.mem_cons, List.not_mem_nil, or_false] at member
  rcases member with (letter | ⟨s, _, rfl | letter⟩) | rfl
  · exact isSmall_of_isWordChar (t.root.run c letter)
  · decide
  · exact s.small letter
  · decide

end

/-! ## Scanning the bytes -/

/-- How many bytes the token has that begins here, without its braces. It is looked for in the bytes. -/
def tokenLength? (cs : List Char) : Option Nat :=
  (readToken (bytes cs)).map fun (_, after) => (bytes cs).length - after.length - 1

theorem tokenLength?_body (t : Token) (after : List Char) :
    tokenLength? (t.body ++ '}' :: after) = some (bytes t.body).length := by
  have apart : bytes (t.body ++ '}' :: after) = t.body ++ '}' :: bytes after := by
    have same : bytes (t.body ++ ['}']) = t.body ++ ['}'] := bytes_small fun c => t.small
    rw [List.append_cons, bytes_append, same, ← List.append_cons]
  have own : bytes t.body = t.body := bytes_small fun c member => t.small (List.mem_append_left _ member)
  rw [tokenLength?, apart, readToken_body, own, Option.map_some]
  simp only [List.length_append, List.length_cons, Option.some.injEq]
  omega

theorem tokenLength?_closed {cs : List Char} (closed : ¬ Opens cs) : tokenLength? cs = none := by
  have nothing : readToken (bytes cs) = none := by
    apply readToken_eq_none_iff.mpr
    rintro ⟨t, after, spelled⟩
    rw [List.append_cons] at spelled
    obtain ⟨rest, split, _⟩ := front_of_bytes (fun c => t.small) spelled
    exact closed ⟨t, rest, by rw [split, ← List.append_cons]⟩
  rw [tokenLength?, nothing]
  rfl

/-- A letter of one byte is found in the bytes where it stands in the text. -/
theorem find_none {stop : Char} (small : IsSmall stop) {cs : List Char} (free : stop ∉ cs) :
    (bytes cs).findIdx? (· = stop) = none := by
  apply List.findIdx?_eq_none_iff.mpr
  intro d member
  rw [decide_eq_false_iff_not]
  rintro rfl
  exact free ((mem_bytes_iff small).mp member)

theorem find_stop {stop : Char} (small : IsSmall stop) {front : List Char} (free : stop ∉ front) (back : List Char) :
    (bytes (front ++ stop :: back)).findIdx? (· = stop) = some (bytes front).length := by
  have here : bytes (stop :: back) = stop :: bytes back := by
    rw [bytes, List.flatMap_cons, encode_small small]
    rfl
  rw [bytes_append, List.findIdx?_append, find_none small free, here, List.findIdx?_cons]
  simp

/-- What is written for the text between two braces. -/
def substituted (b : Bag) (token : List Char) : List Char :=
  match b.lookup ((Text.splitAll '.' token).map String.ofList) with
  | some v => (Bag.render v).toList
  | none => '{' :: (token ++ ['}'])

/-- Interpolation byte by byte: `none` where a cut fails. -/
def scan? (b : Bag) (cs : List Char) : Option (List Char) :=
  match (bytes cs).findIdx? (· = '{') with
  | none => some cs
  | some opening =>
    match cut? cs opening, _behind : cut? cs (opening + 1) with
    | some (front, _), some (_, after) =>
      match tokenLength? after with
      | none => (scan? b after).map fun out => front ++ '{' :: out
      | some length =>
        match cut? after length, _beyond : cut? after (length + 1) with
        | some (token, _), some (_, rest) => (scan? b rest).map fun out => front ++ (substituted b token ++ out)
        | _, _ => none
    | _, _ => none
termination_by cs.length
decreasing_by
  · exact cut?_shorter _behind
  · exact (cut?_shorter _beyond).trans (cut?_shorter _behind)

section
variable {b : Bag} {front : List Char}

theorem scan?_plain {cs : List Char} (free : '{' ∉ cs) : scan? b cs = some cs := by
  rw [scan?, find_none (by decide) free]

theorem cut_at_small (front : List Char) {c : Char} (small : IsSmall c) (after : List Char) :
    cut? (front ++ c :: after) (bytes front).length = some (front, c :: after) ∧
      cut? (front ++ c :: after) ((bytes front).length + 1) = some (front ++ [c], after) := by
  refine ⟨cut?_append front (c :: after), ?_⟩
  have own : bytes [c] = [c] := bytes_small (by simpa using small)
  have size : (bytes (front ++ [c])).length = (bytes front).length + 1 := by
    rw [bytes_append, own, List.length_append]
    rfl
  rw [← size, List.append_cons, cut?_append]

theorem scan?_brace (free : '{' ∉ front) {after : List Char} (closed : ¬ Opens after) :
    scan? b (front ++ '{' :: after) = (scan? b after).map fun out => front ++ '{' :: out := by
  obtain ⟨before, behind⟩ := cut_at_small front (show IsSmall '{' by decide) after
  rw [scan?, find_stop (by decide) free]
  dsimp only
  rw [before, behind]
  dsimp only
  rw [tokenLength?_closed closed]

theorem scan?_token (free : '{' ∉ front) (t : Token) (rest : List Char) :
    scan? b (front ++ (t.chars ++ rest)) = (scan? b rest).map fun out => front ++ (substituted b t.body ++ out) := by
  have whole : t.chars ++ rest = '{' :: (t.body ++ '}' :: rest) := by simp [Token.chars]
  obtain ⟨before, behind⟩ := cut_at_small front (show IsSmall '{' by decide) (t.body ++ '}' :: rest)
  obtain ⟨inside, beyond⟩ := cut_at_small t.body (show IsSmall '}' by decide) rest
  rw [whole, scan?, find_stop (by decide) free]
  dsimp only
  rw [before, behind]
  dsimp only
  rw [tokenLength?_body]
  dsimp only
  rw [inside, beyond]

end

theorem splitAll_body (t : Token) : Text.splitAll '.' t.body = t.parts := by
  have apart : ∀ w : Word, '.' ∉ w.letters := fun w member => absurd (w.run '.' member) (by decide)
  have joined : ∀ (segments : List Segment) (first : List Char), '.' ∉ first →
      Text.splitAll '.' (first ++ segments.flatMap fun s => '.' :: s.chars) =
        first :: segments.map Segment.chars := by
    intro segments
    induction segments with
    | nil =>
      intro first absent
      rw [List.flatMap_nil, List.append_nil, Text.splitAll_absent absent]
      rfl
    | cons s segments ih =>
      intro first absent
      have later : '.' ∉ s.chars := by
        intro member
        rcases List.mem_append.mp member with sign | letter
        · revert sign
          cases s.lead <;> decide
        · exact apart s.word letter
      rw [List.flatMap_cons, List.cons_append, Text.splitAll_append absent, ih s.chars later]
      rfl
  exact joined t.segments t.root.letters (apart t.root)

theorem substituted_body (b : Bag) (t : Token) :
    substituted b t.body = TextPiece.fill b (.token (t.parts.map String.ofList)) := by
  rw [substituted, splitAll_body]
  cases found : b.lookup (t.parts.map String.ofList) with
  | none => simp only [TextPiece.fill, found, intercalate_parts]
  | some v => simp only [TextPiece.fill, found]

/-- Byte by byte no cut fails, and the result is the same. -/
theorem scan?_eq (b : Bag) : ∀ cs : List Char, scan? b cs = some ((textPieces cs).flatMap (TextPiece.fill b))
  | cs => by
    -- The scan goes from one brace to the next, so the recursion is on what stands behind the first.
    by_cases brace : '{' ∈ cs
    · obtain ⟨front, after, rfl, free⟩ := List.eq_append_cons_of_mem brace
      rw [textPieces_stretch free, List.flatMap_append, fill_chars]
      by_cases opens : Opens after
      · obtain ⟨t, rest, rfl⟩ := opens
        have whole : '{' :: (t.body ++ '}' :: rest) = t.chars ++ rest := by simp [Token.chars]
        rw [whole, scan?_token free, scan?_eq b rest, textPieces_token, substituted_body]
        rfl
      · rw [scan?_brace free opens, scan?_eq b after, textPieces_brace opens]
        rfl
    · rw [scan?_plain brace, textPieces_plain brace, fill_chars]
termination_by cs => cs.length
decreasing_by
  all_goals
    subst_vars
    simp only [List.length_append, List.length_cons]
    omega

/-- Interpolation goes over a text once. Every text is a row of pieces, and however it is taken apart, it
becomes what its pieces become, one behind the other: what is put in is not looked at again. Scanned byte by
byte it becomes the same, and no cut on the way fails. -/
theorem interpolate_once (b : Bag) :
    (∀ s : String, ∃ r : Reading, r.text = s) ∧
    (∀ (r : Reading) (out : String), interpolate b r.text = out ↔
      ∃ outs, List.Forall₂ (Piece.Becomes b) r.pieces outs ∧ String.ofList outs.flatten = out) ∧
    ∀ s : String, (scan? b s.toList).map String.ofList = some (interpolate b s) := by
  refine ⟨fun s => ?_, fun r out => interpolate_text_iff, fun s => ?_⟩
  · obtain ⟨r, whole⟩ := exists_pieces s.toList
    exact ⟨r, by rw [Reading.text, whole, String.ofList_toList]⟩
  · rw [scan?_eq]
    rfl

end PageSpec.Tokens
