import PageSpec.Proofs.Browser.Targets
import PageSpec.Proofs.Text.Cutting
/-!
What target texts are read as. A text without the signs of selectors that is not the name of an element is read as a
text. A tag with a part of a text is read with the tag in small letters and the part as it stands, and written out
again it is read as the same.
-/
namespace PageSpec

namespace Target
variable {cs : List Char} {tag part : String}

/-! ## Plain texts -/

/-- Signs that a plain text does without. -/
def selectorSigns : List Char := ['#', '.', '[', ']', ':', '>', '+', '~']

theorem unmarked_of_absent (absent : ':' ∉ cs) : Text.after? selectorMark cs = none := by
  by_contra marked
  obtain ⟨rest, marked⟩ := Option.ne_none_iff_exists'.mp marked
  apply absent
  rw [Text.eq_of_after? marked]
  simp [selectorMark]

theorem unsplit_of_absent (absent : '>' ∉ cs) : splitTagText cs = none := by
  rw [splitTagText, Text.splitOnce_absent absent]

theorem hasPseudoClass_absent : ∀ {before : Option Char} {cs : List Char}, ':' ∉ cs → hasPseudoClass before cs = false
  | _, [], _ => rfl
  | _, c :: cs, absent => by
    obtain ⟨first, later⟩ := not_or.mp (mt List.mem_cons.mpr absent)
    have other : (c == ':') = false := beq_false_of_ne (Ne.symm first)
    unfold hasPseudoClass
    rw [hasPseudoClass_absent later, other]
    rfl

theorem hasQualifiedTag_absent (absent : ∀ c ∈ ['#', '.', '['], c ∉ cs) : hasQualifiedTag cs = false := by
  cases cs with
  | nil => rfl
  | cons c cs =>
    have behind {d : Char} {rest : List Char} (sign : d ∈ ['#', '.', '['])
        (found : (c :: cs).dropWhile isTagChar = d :: rest) : False := by
      apply absent d sign
      apply (List.dropWhile_sublist isTagChar).subset
      rw [found]
      exact List.mem_cons_self
    unfold hasQualifiedTag
    dsimp only
    split
    · rename_i found
      exact (behind (by decide) found).elim
    · rename_i found
      exact (behind (by decide) found).elim
    · rename_i found
      exact (behind (by decide) found).elim
    · rw [Bool.and_false]

theorem readsAsSelector_plain (plain : ∀ c ∈ selectorSigns, c ∉ cs) (unnamed : String.ofList cs ∉ knownTags) :
    readsAsSelector cs = false := by
  have absent (c : Char) (sign : c ∈ selectorSigns := by decide) : c ∉ cs := plain c sign
  have marks : Text.after? selectorMark cs = none := unmarked_of_absent (absent ':')
  have known : knownTags.contains (.ofList cs) = false := by simpa using unnamed
  have leads : leadingSigns.any (cs.head? == some ·) = false := by
    rw [List.any_eq_false]
    intro c sign
    rw [beq_iff_eq]
    intro first
    have inside : leadingSigns ⊆ selectorSigns := by decide
    exact plain c (inside sign) (List.mem_of_head? first)
  have joins : joiners.any cs.contains = false := by
    simp [joiners, absent '>', absent '+', absent '~']
  have classes : hasPseudoClass none cs = false := hasPseudoClass_absent (absent ':')
  have qualified : hasQualifiedTag cs = false := by
    apply hasQualifiedTag_absent
    have inside : ['#', '.', '['] ⊆ selectorSigns := by decide
    exact fun d sign => plain d (inside sign)
  simp only [readsAsSelector, marks, known, leads, joins, classes, qualified, Option.isSome_none, Bool.or_false,
    Bool.and_false]

/-! ## Tags with a part of a text -/

/-- What `tag > text` is read as: a tag name, and a text that does not read as a selector. -/
theorem splitTagText_eq_some_iff : splitTagText cs = some (tag, part) ↔ ∃ left right,
    Text.splitOnce '>' cs = some (left, right) ∧ isTagName (Text.trimChars left) = true ∧
      Text.trimChars right ≠ [] ∧ readsAsSelector (Text.trimChars right) = false ∧
      tag = .ofList ((Text.trimChars left).map Char.toLower) ∧ part = .ofList (Text.trimChars right) := by
  unfold splitTagText
  cases cut : Text.splitOnce '>' cs with
  | none => simp
  | some p =>
    obtain ⟨left, right⟩ := p
    by_cases bad : (!isTagName (Text.trimChars left) || (Text.trimChars right).isEmpty ||
        readsAsSelector (Text.trimChars right)) = true
    · simp only [bad, ↓reduceIte]
      simp only [Bool.or_eq_true, Bool.not_eq_true', List.isEmpty_iff] at bad
      constructor
      · rintro ⟨⟩
      · rintro ⟨l, r, same, named, shown, plain, _⟩
        cases same
        rcases bad with (unnamed | nothing) | selects
        · cases named.symm.trans unnamed
        · exact (shown nothing).elim
        · cases plain.symm.trans selects
    · simp only [bad]
      simp only [Bool.or_eq_true, Bool.not_eq_true', List.isEmpty_iff, not_or, Bool.not_eq_false,
        Bool.not_eq_true] at bad
      obtain ⟨⟨named, shown⟩, plain⟩ := bad
      constructor
      · rintro ⟨⟩
        exact ⟨left, right, rfl, named, shown, plain, rfl, rfl⟩
      · rintro ⟨l, r, same, _, _, _, rfl, rfl⟩
        cases same
        rfl

theorem classify_eq_tagText_iff {raw : String} : classify raw = .tagText tag part ↔
    Text.after? selectorMark (Text.trimChars raw.toList) = none ∧
      splitTagText (Text.trimChars raw.toList) = some (tag, part) := by
  unfold classify
  dsimp only
  cases marked : Text.after? selectorMark (Text.trimChars raw.toList) with
  | some rest => simp
  | none =>
    cases split : splitTagText (Text.trimChars raw.toList) with
    | some p => simp [Prod.ext_iff]
    | none =>
      simp only [reduceCtorEq, and_false, iff_false]
      split <;> simp

/-! ### The tag -/

theorem isTagChar_small {c : Char} (letter : isTagChar c = true) : c.toNat < 128 := by
  unfold isTagChar Text.isAsciiAlnum Text.isAsciiLetter Text.isDigit at letter
  simp only [Bool.or_eq_true, Bool.and_eq_true, decide_eq_true_eq, beq_iff_eq, Char.le_def, UInt32.le_iff_toNat_le,
    Char.toNat_val] at letter
  rcases letter with ((⟨_, high⟩ | ⟨_, high⟩) | ⟨_, high⟩) | rfl
  · exact high.trans_lt (by decide)
  · exact high.trans_lt (by decide)
  · exact high.trans_lt (by decide)
  · decide

/-- A sign of a tag name is no blank and no colon, and in small letters it is a sign of a tag name too. -/
theorem isTagChar_each {c : Char} (letter : isTagChar c = true) :
    Text.isBlank c = false ∧ isTagChar c.toLower = true ∧ c.toLower.isUpper = false ∧
      Text.isAsciiLetter c.toLower = Text.isAsciiLetter c ∧ (c.isUpper = false → c.toLower = c) := by
  have each : ∀ n < 128, isTagChar (.ofNat n) = true → Text.isBlank (.ofNat n) = false ∧
      isTagChar (Char.ofNat n).toLower = true ∧ (Char.ofNat n).toLower.isUpper = false ∧
      Text.isAsciiLetter (Char.ofNat n).toLower = Text.isAsciiLetter (.ofNat n) ∧
      ((Char.ofNat n).isUpper = false → (Char.ofNat n).toLower = .ofNat n) := by decide +kernel
  have here := each c.toNat (isTagChar_small letter)
  rw [Char.ofNat_toNat] at here
  exact here letter

theorem isTagChar_of_mem (named : isTagName cs = true) : ∀ c ∈ cs, isTagChar c = true := by
  cases cs with
  | nil => cases named
  | cons c cs =>
    obtain ⟨first, others⟩ := Bool.and_eq_true_iff.mp named
    have letter : isTagChar c = true := by simp [isTagChar, Text.isAsciiAlnum, first]
    exact List.forall_mem_cons.mpr ⟨letter, List.all_eq_true.mp others⟩

theorem isTagName_lower (named : isTagName cs = true) : isTagName (cs.map Char.toLower) = true := by
  have letters := isTagChar_of_mem named
  cases cs with
  | nil => cases named
  | cons c cs =>
    obtain ⟨first, _⟩ := Bool.and_eq_true_iff.mp named
    obtain ⟨_, _, _, kind, _⟩ := isTagChar_each (letters c List.mem_cons_self)
    refine Bool.and_eq_true_iff.mpr ⟨kind.trans first, List.all_eq_true.mpr fun d member => ?_⟩
    obtain ⟨e, inside, rfl⟩ := List.mem_map.mp member
    exact (isTagChar_each (letters e (List.mem_cons_of_mem c inside))).2.1

/-! ### Reading again -/

/-- A tag with a part of a text as it stands after reading: the tag is a tag name in small letters, and the part is a
text without outer blanks that does not read as a selector. -/
structure Patterned (tag part : String) : Prop where
  named : isTagName tag.toList = true
  small : ∀ c ∈ tag.toList, c.isUpper = false
  shown : part.toList ≠ []
  trimmed : Text.trimChars part.toList = part.toList
  plain : readsAsSelector part.toList = false

theorem patterned_of_split (split : splitTagText cs = some (tag, part)) : Patterned tag part := by
  obtain ⟨left, right, _, named, shown, plain, rfl, rfl⟩ := splitTagText_eq_some_iff.mp split
  refine ⟨?_, ?_, ?_, ?_, ?_⟩
  all_goals rw [String.toList_ofList]
  · exact isTagName_lower named
  · intro c member
    obtain ⟨d, inside, rfl⟩ := List.mem_map.mp member
    exact (isTagChar_each (isTagChar_of_mem named d inside)).2.2.1
  · exact shown
  · exact Text.trimChars_trimChars right
  · exact plain

namespace Patterned

/-- The pattern of a tag with a part of a text. -/
def pattern (tag part : String) : List Char := tag.toList ++ ' ' :: '>' :: ' ' :: part.toList

theorem pattern_eq (tag part : String) : (tag ++ " > " ++ part).toList = pattern tag part := by
  rw [String.toList_append, String.toList_append, List.append_assoc]
  rfl

theorem letters (read : Patterned tag part) : ∀ c ∈ tag.toList, isTagChar c = true := isTagChar_of_mem read.named

theorem solid (read : Patterned tag part) : ∀ c ∈ tag.toList, Text.isBlank c = false :=
  fun c member => (isTagChar_each (read.letters c member)).1

theorem tag_ends (read : Patterned tag part) : (∃ c more, tag.toList = c :: more ∧ Text.isBlank c = false) ∧
    ∃ front c, tag.toList = front ++ [c] ∧ Text.isBlank c = false := by
  have ends := Text.trimChars_nil_or tag.toList
  rw [Text.trimChars_letters read.solid] at ends
  apply ends.resolve_left
  intro nothing
  have named := read.named
  rw [nothing] at named
  cases named

theorem part_ends (read : Patterned tag part) : (∃ c more, part.toList = c :: more ∧ Text.isBlank c = false) ∧
    ∃ front c, part.toList = front ++ [c] ∧ Text.isBlank c = false := by
  have ends := Text.trimChars_nil_or part.toList
  rw [read.trimmed] at ends
  exact ends.resolve_left read.shown

theorem trimmed_pattern (read : Patterned tag part) : Text.trimChars (pattern tag part) = pattern tag part := by
  apply Text.trimChars_self
  · obtain ⟨⟨c, more, front, letter⟩, _⟩ := read.tag_ends
    exact ⟨c, more ++ ' ' :: '>' :: ' ' :: part.toList, by simp [pattern, front], letter⟩
  · obtain ⟨_, front, c, back, letter⟩ := read.part_ends
    exact ⟨tag.toList ++ ' ' :: '>' :: ' ' :: front, c, by simp [pattern, back], letter⟩

/-- The tag ends at a blank, so it is not taken for the mark of a selector. -/
theorem unmarked_pattern (read : Patterned tag part) : Text.after? selectorMark (pattern tag part) = none := by
  by_contra marked
  obtain ⟨rest, marked⟩ := Option.ne_none_iff_exists'.mp marked
  have tagged : (pattern tag part).dropWhile isTagChar = ' ' :: '>' :: ' ' :: part.toList :=
    (Text.run_stops read.letters (by rintro c ⟨⟩; rfl)).2
  rw [Text.eq_of_after? marked] at tagged
  -- A mark ends its first run of letters at a colon.
  cases tagged

theorem split_pattern (read : Patterned tag part) : splitTagText (pattern tag part) = some (tag, part) := by
  have absent : '>' ∉ tag.toList ++ [' '] := by
    intro member
    rcases List.mem_append.mp member with inside | blank
    · cases read.letters '>' inside
    · cases List.mem_singleton.mp blank
  have cut : Text.splitOnce '>' (pattern tag part) = some (tag.toList ++ [' '], ' ' :: part.toList) := by
    rw [← Text.splitOnce_append absent]
    simp [pattern]
  have left : Text.trimChars (tag.toList ++ [' ']) = tag.toList := by
    obtain ⟨begins, ends⟩ := read.tag_ends
    have none_ : ∀ c ∈ ([] : List Char), Text.isBlank c = true := by simp
    exact Text.trimChars_around none_ (List.forall_mem_singleton.mpr rfl) begins ends
  have right : Text.trimChars (' ' :: part.toList) = part.toList := by
    rw [Text.trimChars_blank rfl, read.trimmed]
  have small : tag.toList.map Char.toLower = tag.toList := by
    have same (c : Char) (member : c ∈ tag.toList) : c.toLower = c :=
      (isTagChar_each (read.letters c member)).2.2.2.2 (read.small c member)
    rw [List.map_congr_left same, List.map_id']
  rw [splitTagText_eq_some_iff]
  refine ⟨_, _, cut, ?_, ?_, ?_, ?_, ?_⟩
  · rw [left]; exact read.named
  · rw [right]; exact read.shown
  · rw [right]; exact read.plain
  · rw [left, small, String.ofList_toList]
  · rw [right, String.ofList_toList]

theorem classify_again (read : Patterned tag part) : classify (tag ++ " > " ++ part) = .tagText tag part := by
  rw [classify_eq_tagText_iff, pattern_eq, read.trimmed_pattern]
  exact ⟨read.unmarked_pattern, read.split_pattern⟩

end Patterned

/-- A tag with a part of a text that is read as itself. -/
structure Settled (tag part : String) : Prop where
  /-- The tag is a letter with letters, digits and hyphens behind it, and none of them is a capital. -/
  named : isTagName tag.toList = true ∧ ∀ c ∈ tag.toList, c.isUpper = false
  /-- The part is not blank, and no blanks are around it. -/
  shown : Text.allBlank part = false ∧ Text.trim part = part
  /-- No sign in the part joins selectors. -/
  unjoined : ∀ c ∈ joiners, c ∉ part.toList
  /-- Written out, the two are read as they are. -/
  again : classify (tag ++ " > " ++ part) = .tagText tag part

theorem Patterned.settled (read : Patterned tag part) : Settled tag part where
  named := ⟨read.named, read.small⟩
  shown := by
    constructor
    · obtain ⟨⟨c, more, front, letter⟩, _⟩ := read.part_ends
      simp [Text.allBlank, front, letter]
    · rw [Text.trim, read.trimmed, String.ofList_toList]
  unjoined := by
    intro c joins member
    have selects : readsAsSelector part.toList = true := by
      have shown : part.toList.isEmpty = false := by simpa using read.shown
      have joined : joiners.any part.toList.contains = true :=
        List.any_eq_true.mpr ⟨c, joins, List.contains_iff_mem.mpr member⟩
      simp only [readsAsSelector, shown, joined, Bool.not_false, Bool.or_true, Bool.true_or, Bool.and_self]
    cases read.plain.symm.trans selects
  again := read.classify_again

/-- A text without the signs of selectors is read as a text, unless it is the name of an element. What is read as a
tag with a part of a text is settled: it is read so again. -/
theorem classify_settles (raw : String) :
    ((∀ c ∈ selectorSigns, c ∉ (Text.trim raw).toList) → Text.trim raw ∉ knownTags →
      classify raw = .text (Text.trim raw)) ∧
    ∀ tag part, classify raw = .tagText tag part → Settled tag part := by
  constructor
  · intro plain unnamed
    rw [Text.trim, String.toList_ofList] at plain
    have text : readsAsSelector (Text.trimChars raw.toList) = false := readsAsSelector_plain plain unnamed
    unfold classify
    dsimp only
    rw [unmarked_of_absent (plain ':' (by decide)), unsplit_of_absent (plain '>' (by decide)), text]
    rfl
  · intro tag part read
    exact (patterned_of_split (classify_eq_tagText_iff.mp read).2).settled

/-- A label of two words is read as a text; a tag in capitals with a label is settled in small letters. -/
theorem labels_settled :
    ((∀ c ∈ selectorSigns, c ∉ (Text.trim " Sign in ").toList) ∧ Text.trim " Sign in " ∉ knownTags ∧
      classify " Sign in " = .text (Text.trim " Sign in ")) ∧
    classify "BUTTON>  Save: all" = .tagText "button" "Save: all" ∧ Settled "button" "Save: all" := by
  have trimmed : Text.trim " Sign in " = "Sign in" := by decide +kernel
  have plain : ∀ c ∈ selectorSigns, c ∉ (Text.trim " Sign in ").toList := by
    simp [trimmed, selectorSigns]
  have unnamed : Text.trim " Sign in " ∉ knownTags := by decide +kernel
  have read : classify "BUTTON>  Save: all" = .tagText "button" "Save: all" := by decide +kernel
  exact ⟨⟨plain, unnamed, (classify_settles " Sign in ").1 plain unnamed⟩, read,
    (classify_settles "BUTTON>  Save: all").2 "button" "Save: all" read⟩

end Target
end PageSpec
