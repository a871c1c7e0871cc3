import PageSpec.Proofs.Page.Chains
import PageSpec.Proofs.Text.Cutting
/-!
Selectors in writing. A selector is written with its attribute values between double quotes, and with blanks
as one likes where they do not matter. Each part of a compound is read back as it is written and leaves what
stands behind it, but for one thing: the bracket of an attribute is closed by the first closing bracket, also
inside the quotes. What is read from there on keeps a quote in a value, which no written value has.
-/
namespace PageSpec.Page

/-! ## Writing -/

/-- A name: letters, digits, hyphens and underscores, at least one of them. -/
def IsName (name : String) : Prop := name ≠ "" ∧ ∀ c ∈ name.toList, isNameChar c = true

/-- A compound that can be written down: it asks for something, by names that are names, and no value that it
asks for has a double quote. -/
structure Compound.Writable (c : Compound) : Prop where
  asks : c ≠ .any
  tag : ∀ tag ∈ c.tag, IsName tag ∧ ∀ d ∈ tag.toList, d.toLower = d
  id : ∀ id ∈ c.id, IsName id
  classes : ∀ name ∈ c.classes, IsName name
  attrs : ∀ a ∈ c.attrs, IsName a.1 ∧ ∀ value ∈ a.2, '"' ∉ value.toList

def Chain.Writable (g : Chain) : Prop := ∀ c ∈ g.compounds, c.Writable

instance (name : String) : Decidable (IsName name) :=
  have (cs : List Char) : Decidable (∀ c ∈ cs, isNameChar c = true) := List.decidableBAll _ cs
  inferInstanceAs (Decidable (_ ∧ _))

instance (c : Compound) : Decidable c.Writable :=
  have (cs : List Char) : Decidable (∀ d ∈ cs, d.toLower = d) := List.decidableBAll _ cs
  decidable_of_iff (c ≠ .any ∧ (∀ tag ∈ c.tag, IsName tag ∧ ∀ d ∈ tag.toList, d.toLower = d) ∧
      (∀ id ∈ c.id, IsName id) ∧ (∀ name ∈ c.classes, IsName name) ∧
      ∀ a ∈ c.attrs, IsName a.1 ∧ ∀ value ∈ a.2, '"' ∉ value.toList)
    ⟨fun ⟨asks, tag, id, classes, attrs⟩ => ⟨asks, tag, id, classes, attrs⟩,
      fun ⟨asks, tag, id, classes, attrs⟩ => ⟨asks, tag, id, classes, attrs⟩⟩

instance (g : Chain) : Decidable g.Writable := inferInstanceAs (Decidable (∀ c ∈ g.compounds, c.Writable))

/-- Where a selector has blanks: between two compounds, and before and behind the signs between them and
between groups. -/
structure Layout where
  gap : List Char
  ahead : List Char
  behind : List Char
  gap_some : gap ≠ []
  gap_blank : ∀ c ∈ gap, Text.isBlank c = true
  ahead_blank : ∀ c ∈ ahead, Text.isBlank c = true
  behind_blank : ∀ c ∈ behind, Text.isBlank c = true

def writeAttribute : String × Option String → List Char
  | (name, none) => '[' :: (name.toList ++ [']'])
  | (name, some value) => '[' :: (name.toList ++ '=' :: '"' :: (value.toList ++ ['"', ']']))

def Compound.write (c : Compound) : List Char :=
  (c.tag.map String.toList).getD [] ++ ((c.id.map fun id => '#' :: id.toList).getD [] ++
    (c.classes.flatMap (fun name => '.' :: name.toList) ++ c.attrs.flatMap writeAttribute))

def Layout.between (l : Layout) : Combinator → List Char
  | .descendant => l.gap
  | .child => l.ahead ++ '>' :: l.behind

def Chain.write (l : Layout) : Chain → List Char
  | .one c => c.write
  | .link left k c => left.write l ++ (l.between k ++ c.write)

def writeGroups (l : Layout) : List Chain → List Char
  | [] => []
  | [g] => g.write l
  | g :: gs => g.write l ++ (l.ahead ++ ',' :: (l.behind ++ writeGroups l gs))

/-- The groups of a selector as one text. -/
def writeSelector (l : Layout) (groups : List Chain) : String := .ofList (writeGroups l groups)

/-! ## Names -/

section
variable {c : Char} {name : String} {rest : List Char}

theorem isBlank_of_isNameChar (letter : isNameChar c = true) : Text.isBlank c = false := by
  unfold isNameChar Text.isAsciiAlnum Text.isAsciiLetter Text.isDigit at letter
  simp only [Bool.or_eq_true, Bool.and_eq_true, decide_eq_true_eq, beq_iff_eq, Char.le_def,
    UInt32.le_iff_toNat_le] at letter
  rcases letter with (((small | capital) | digit) | rfl) | rfl
  · change 97 ≤ c.toNat ∧ c.toNat ≤ 122 at small
    simp [Text.isBlank]
    omega
  · change 65 ≤ c.toNat ∧ c.toNat ≤ 90 at capital
    simp [Text.isBlank]
    omega
  · change 48 ≤ c.toNat ∧ c.toNat ≤ 57 at digit
    simp [Text.isBlank]
    omega
  · decide
  · decide

/-- A name is over: the text ends, or something comes that no name has. -/
def Stops (rest : List Char) : Prop := ∀ d ∈ rest.head?, isNameChar d = false

theorem IsName.lacks (named : IsName name) (other : isNameChar c = false) : c ∉ name.toList := by
  intro member
  cases other.symm.trans (named.2 c member)

theorem IsName.toList_ne (named : IsName name) : name.toList ≠ [] := by
  simpa using named.1

theorem IsName.isEmpty_eq (named : IsName name) : name.toList.isEmpty = false := by
  simpa using named.toList_ne

/-! ## Parts of a compound -/

variable {k : Compound}

theorem readQualifiers_id (named : IsName name) (stop : Stops rest) :
    readQualifiers k ('#' :: (name.toList ++ rest)) = readQualifiers { k with id := some name } rest := by
  obtain ⟨front, back⟩ := Text.run_stops named.2 stop
  have read : readQualifiers k ('#' :: (name.toList ++ rest)) =
      if ((name.toList ++ rest).takeWhile isNameChar).isEmpty then .error .emptyId
      else readQualifiers { k with id := some (.ofList ((name.toList ++ rest).takeWhile isNameChar)) }
        ((name.toList ++ rest).dropWhile isNameChar) := (readQualifiers.eq_def _ _).trans rfl
  rw [read, front, back, named.isEmpty_eq, String.ofList_toList, if_neg Bool.false_ne_true]

theorem readQualifiers_class (named : IsName name) (stop : Stops rest) :
    readQualifiers k ('.' :: (name.toList ++ rest)) =
      readQualifiers { k with classes := k.classes ++ [name] } rest := by
  obtain ⟨front, back⟩ := Text.run_stops named.2 stop
  have read : readQualifiers k ('.' :: (name.toList ++ rest)) =
      if ((name.toList ++ rest).takeWhile isNameChar).isEmpty then .error .emptyClass
      else readQualifiers { k with classes := k.classes ++ [.ofList ((name.toList ++ rest).takeWhile isNameChar)] }
        ((name.toList ++ rest).dropWhile isNameChar) := (readQualifiers.eq_def _ _).trans rfl
  rw [read, front, back, named.isEmpty_eq, String.ofList_toList, if_neg Bool.false_ne_true]

/-- What stands between brackets is read up to the first closing one. -/
theorem readQualifiers_bracket {body : List Char} (unclosed : ']' ∉ body) :
    readQualifiers k ('[' :: (body ++ ']' :: rest)) =
      (readAttribute body).bind fun a => readQualifiers { k with attrs := k.attrs ++ [a] } rest := by
  obtain ⟨front, back⟩ := Text.before_stop unclosed rest
  have left : (body ++ ']' :: rest).drop (body.length + 1) = rest := by
    rw [List.drop_append, List.drop_eq_nil_of_le (Nat.le_succ _)]
    simp
  rw [readQualifiers.eq_def]
  split
  case h_4 r same =>
    cases same
    rw [back]
    dsimp only
    rw [front, left]
    rfl
  case h_6 _ _ _ _ other _ same =>
    cases same
    exact absurd rfl other
  all_goals
    rename_i same
    cases same

/-- The qualifiers of a compound end where the text does, or at a blank or the sign of a child. -/
def Ends (rest : List Char) : Prop := ∀ d ∈ rest.head?, Text.isBlank d = true ∨ d = '>'

theorem readQualifiers_end (ends : Ends rest) : readQualifiers k rest = .ok (k, rest) := by
  cases rest with
  | nil => exact (readQualifiers.eq_def _ _).trans rfl
  | cons d rest =>
    rw [readQualifiers.eq_def]
    have ended := ends d rfl
    split
    case h_1 same => cases same
    case h_6 d' r _ _ _ _ same =>
      cases same
      rcases ended with blank | rfl
      · rw [blank]
        rfl
      · rfl
    all_goals
      rename_i same
      cases same
      rcases ended with blank | child
      · exact absurd blank (by decide)
      · exact absurd child (by decide)

/-! ## Attributes -/

theorem readAttribute_name (named : IsName name) : readAttribute name.toList = .ok (name, none) := by
  have whole := Text.splitOnce_absent (named.lacks (c := '=') rfl)
  have trimmed := Text.trimChars_letters fun c member => isBlank_of_isNameChar (named.2 c member)
  unfold readAttribute
  rw [whole]
  simp only [trimmed, named.isEmpty_eq, String.ofList_toList]
  rfl

theorem readAttribute_split (named : IsName name) (value : List Char) :
    readAttribute (name.toList ++ '=' :: value) = .ok (name,
      some (.ofList ((unquoteWith? '"' (Text.trimChars value) <|> unquoteWith? '\'' (Text.trimChars value)).getD
        (Text.trimChars value)))) := by
  have split := Text.splitOnce_append (named.lacks (c := '=') rfl) value
  have trimmed := Text.trimChars_letters fun c member => isBlank_of_isNameChar (named.2 c member)
  unfold readAttribute
  rw [split]
  simp only [trimmed, String.ofList_toList]

/-- A quoted value is read back, whatever stands between the quotes. -/
theorem readAttribute_quoted (named : IsName name) (value : List Char) :
    readAttribute (name.toList ++ '=' :: '"' :: (value ++ ['"'])) = .ok (name, some (.ofList value)) := by
  have trimmed : Text.trimChars ('"' :: (value ++ ['"'])) = '"' :: (value ++ ['"']) := by
    unfold Text.trimChars
    rw [Text.trimStart_cons (by decide), ← List.cons_append, Text.trimEnd_concat (by decide)]
  have bare : unquoteWith? '"' ('"' :: (value ++ ['"'])) = some value := by
    simp [unquoteWith?]
  rw [readAttribute_split named, trimmed, bare]
  rfl

/-- A value whose quotes are cut apart keeps the first of them. -/
theorem readAttribute_cut (named : IsName name) {value : List Char} (unquoted : '"' ∉ value) :
    ∃ read, readAttribute (name.toList ++ '=' :: '"' :: value) = .ok (name, some read) ∧ '"' ∈ read.toList := by
  have trimmed : Text.trimChars ('"' :: value) = '"' :: Text.trimEnd value := by
    unfold Text.trimChars
    rw [Text.trimStart_cons (by decide), Text.trimEnd_cons (by decide)]
  have open_ : (Text.trimEnd value).getLast? ≠ some '"' := fun last =>
    unquoted (Text.mem_of_mem_trimEnd (List.mem_of_getLast? last))
  refine ⟨_, readAttribute_split named _, ?_⟩
  rw [trimmed]
  simp [unquoteWith?, open_]

theorem IsName.unclosed (named : IsName name) : ']' ∉ name.toList := named.lacks rfl

/-- An attribute is read back if its value, if it has one, has no closing bracket. -/
theorem readQualifiers_attribute {wanted : Option String} (named : IsName name)
    (open_ : ∀ value ∈ wanted, ']' ∉ value.toList) : readQualifiers k (writeAttribute (name, wanted) ++ rest) =
      readQualifiers { k with attrs := k.attrs ++ [(name, wanted)] } rest := by
  cases wanted with
  | none =>
    have written : writeAttribute (name, none) ++ rest = '[' :: (name.toList ++ ']' :: rest) := by
      simp [writeAttribute]
    rw [written, readQualifiers_bracket named.unclosed, readAttribute_name named]
    rfl
  | some value =>
    have written : writeAttribute (name, some value) ++ rest =
        '[' :: ((name.toList ++ '=' :: '"' :: (value.toList ++ ['"'])) ++ ']' :: rest) := by
      simp [writeAttribute]
    have unclosed : ']' ∉ name.toList ++ '=' :: '"' :: (value.toList ++ ['"']) := by
      simp [named.unclosed, open_ value rfl]
    rw [written, readQualifiers_bracket unclosed, readAttribute_quoted named, String.ofList_toList]
    rfl

/-- An attribute whose value has a closing bracket is read up to there, with the quote in its value. -/
theorem readQualifiers_cut {value : String} (named : IsName name) (unquoted : '"' ∉ value.toList)
    (closed : ']' ∈ value.toList) : ∃ read rest', '"' ∈ read.toList ∧
      readQualifiers k (writeAttribute (name, some value) ++ rest) =
        readQualifiers { k with attrs := k.attrs ++ [(name, some read)] } rest' := by
  obtain ⟨front, back, whole, unclosed⟩ := List.eq_append_cons_of_mem closed
  rw [whole, List.mem_append, not_or] at unquoted
  obtain ⟨read, cut, kept⟩ := readAttribute_cut named unquoted.1
  refine ⟨read, back ++ '"' :: ']' :: rest, kept, ?_⟩
  have written : writeAttribute (name, some value) ++ rest =
      '[' :: ((name.toList ++ '=' :: '"' :: front) ++ ']' :: (back ++ '"' :: ']' :: rest)) := by
    simp [writeAttribute, whole]
  have open_ : ']' ∉ name.toList ++ '=' :: '"' :: front := by
    simp [named.unclosed, unclosed]
  rw [written, readQualifiers_bracket open_, cut]
  rfl

end

/-! ## Compounds -/

/-- A compound asks for a value with a closing bracket. -/
def Compound.Bracketed (k : Compound) : Prop := ∃ a ∈ k.attrs, ∃ value ∈ a.2, ']' ∈ value.toList

instance (k : Compound) : Decidable k.Bracketed :=
  inferInstanceAs (Decidable (∃ a ∈ k.attrs, ∃ value ∈ a.2, ']' ∈ value.toList))

/-- A compound asks for a value with a double quote. -/
def Compound.Quoting (k : Compound) : Prop := ∃ a ∈ k.attrs, ∃ value ∈ a.2, '"' ∈ value.toList

/-- The characters that a written compound begins with. -/
def opens (d : Char) : Bool := isNameChar d || d == '#' || d == '.' || d == '['

section
variable {k : Compound} {rest : List Char}

theorem Compound.Writable.not_quoting (writable : k.Writable) : ¬ k.Quoting := by
  rintro ⟨a, member, value, asked, quote⟩
  exact (writable.attrs a member).2 value asked quote

theorem readQualifiers_classes : ∀ {names : List String} {k : Compound}, (∀ name ∈ names, IsName name) →
    Stops rest → readQualifiers k (names.flatMap (fun name => '.' :: name.toList) ++ rest) =
      readQualifiers { k with classes := k.classes ++ names } rest
  | [], k, _, _ => by simp
  | name :: names, k, named, stop => by
    have next : Stops (names.flatMap (fun name => '.' :: name.toList) ++ rest) := by
      cases names with
      | nil => exact stop
      | cons => intro d first; cases first; rfl
    rw [List.flatMap_cons, List.append_assoc, List.cons_append, readQualifiers_class (named name List.mem_cons_self) next,
      readQualifiers_classes (fun other member => named other (List.mem_cons_of_mem name member)) stop]
    simp

theorem readQualifiers_attributes : ∀ {attrs : List (String × Option String)} {k : Compound},
    (∀ a ∈ attrs, IsName a.1) → (∀ a ∈ attrs, ∀ value ∈ a.2, ']' ∉ value.toList) →
    readQualifiers k (attrs.flatMap writeAttribute ++ rest) =
      readQualifiers { k with attrs := k.attrs ++ attrs } rest
  | [], k, _, _ => by simp
  | (name, wanted) :: attrs, k, named, open_ => by
    rw [List.flatMap_cons, List.append_assoc,
      readQualifiers_attribute (named _ List.mem_cons_self) (open_ _ List.mem_cons_self),
      readQualifiers_attributes (fun a member => named a (List.mem_cons_of_mem _ member))
        (fun a member => open_ a (List.mem_cons_of_mem _ member))]
    simp

theorem Compound.Writable.write_opens (writable : k.Writable) : ∃ d cs, k.write = d :: cs ∧ opens d = true := by
  obtain ⟨tag, id, classes, attrs⟩ := k
  unfold Compound.write
  cases tag with
  | some tag =>
    obtain ⟨named, _⟩ := writable.tag tag rfl
    obtain ⟨d, cs, letters⟩ := List.exists_cons_of_ne_nil named.toList_ne
    refine ⟨d, _, congrArg (· ++ _) letters, ?_⟩
    simp [opens, named.2 d (letters ▸ List.mem_cons_self)]
  | none =>
    cases id with
    | some id => exact ⟨'#', _, rfl, rfl⟩
    | none =>
      cases classes with
      | cons name names => exact ⟨'.', _, rfl, rfl⟩
      | nil =>
        cases attrs with
        | cons a attrs =>
          obtain ⟨name, wanted⟩ := a
          cases wanted <;> exact ⟨'[', _, rfl, rfl⟩
        | nil => exact absurd rfl writable.asks

theorem Stops.append {front back : List Char} (first : Stops front) (then_ : Stops back) : Stops (front ++ back) := by
  cases front with
  | nil => exact then_
  | cons d front => exact first

/-- Where no star stands, a compound begins with its tag, if it has one. -/
theorem readCompound_tag {cs : List Char} (star : cs.head? ≠ some '*') : readCompound cs =
    if (cs.takeWhile isNameChar).isEmpty then readQualifiers .any cs
    else readQualifiers { Compound.any with tag := some (.ofList ((cs.takeWhile isNameChar).map Char.toLower)) }
      (cs.dropWhile isNameChar) := by
  unfold readCompound
  split
  · exact absurd rfl star
  · rfl

/-- All parts of a written compound but its attributes are read back. -/
theorem readCompound_write (writable : k.Writable) (stop : Stops (k.attrs.flatMap writeAttribute ++ rest)) :
    readCompound (k.write ++ rest) =
      readQualifiers { k with attrs := [] } (k.attrs.flatMap writeAttribute ++ rest) := by
  have star : (k.write ++ rest).head? ≠ some '*' := by
    obtain ⟨d, cs, first, opening⟩ := writable.write_opens
    rw [first]
    rintro ⟨⟩
    cases opening
  obtain ⟨tag, id, classes, attrs⟩ := k
  let others := attrs.flatMap writeAttribute ++ rest
  let named := classes.flatMap (fun name => '.' :: name.toList) ++ others
  let numbered := (id.map fun id => '#' :: id.toList).getD [] ++ named
  have stopNamed : Stops named := by
    refine Stops.append ?_ stop
    cases classes with
    | nil => intro d first; cases first
    | cons => intro d first; cases first; rfl
  have stopNumbered : Stops numbered := by
    refine Stops.append ?_ stopNamed
    cases id with
    | none => intro d first; cases first
    | some => intro d first; cases first; rfl
  -- the id and the classes, whatever the tag is
  have qualified : readQualifiers ⟨tag, none, [], []⟩ numbered = readQualifiers ⟨tag, id, classes, []⟩ others := by
    have byClass (id : Option String) :
        readQualifiers ⟨tag, id, [], []⟩ named = readQualifiers ⟨tag, id, classes, []⟩ others :=
      readQualifiers_classes writable.classes stop
    cases id with
    | none => exact byClass none
    | some id => exact (readQualifiers_id (writable.id id rfl) stopNamed).trans (byClass (some id))
  have written : Compound.write ⟨tag, id, classes, attrs⟩ ++ rest = (tag.map String.toList).getD [] ++ numbered := by
    simp [Compound.write, numbered, named, others]
  rw [readCompound_tag star, written]
  cases tag with
  | none =>
    have front : ([] ++ numbered).takeWhile isNameChar = [] := (Text.run_stops (by simp) stopNumbered).1
    rw [Option.map_none, Option.getD_none, front]
    exact qualified
  | some tag =>
    obtain ⟨isName, small⟩ := writable.tag tag rfl
    obtain ⟨front, back⟩ := Text.run_stops isName.2 stopNumbered
    have lower : tag.toList.map Char.toLower = tag.toList := by
      rw [List.map_congr_left small, List.map_id']
    rw [Option.map_some, Option.getD_some, front, back, isName.isEmpty_eq, lower, String.ofList_toList]
    exact qualified

theorem Ends.stops (ends : Ends rest) : Stops rest := by
  intro d first
  cases letter : isNameChar d with
  | false => rfl
  | true =>
    rcases ends d first with blank | rfl
    · cases (isBlank_of_isNameChar letter).symm.trans blank
    · cases letter

theorem stops_attributes {attrs : List (String × Option String)} : Stops (attrs.flatMap writeAttribute) := by
  rcases attrs with _ | ⟨⟨name, _ | value⟩, attrs⟩
  · intro d first; cases first
  · intro d first; cases first; rfl
  · intro d first; cases first; rfl

/-- A written compound without closing brackets in its values is read back. -/
theorem readCompound_back (writable : k.Writable) (open_ : ¬ k.Bracketed) (ends : Ends rest) :
    readCompound (k.write ++ rest) = .ok (k, rest) := by
  have values : ∀ a ∈ k.attrs, ∀ value ∈ a.2, ']' ∉ value.toList := fun a member value asked closed =>
    open_ ⟨a, member, value, asked, closed⟩
  rw [readCompound_write writable (stops_attributes.append ends.stops),
    readQualifiers_attributes (fun a member => (writable.attrs a member).1) values, readQualifiers_end ends]
  rfl

/-- Reading on adds to the attributes of a compound. -/
theorem readQualifiers_keeps {read : Compound} {cs rest : List Char}
    (done : readQualifiers k cs = .ok (read, rest)) : k.attrs ⊆ read.attrs := by
  fun_induction readQualifiers k cs with
  | case1 => cases done; exact List.Subset.refl _
  | case3 _ _ _ _ ih => exact ih done
  | case5 _ _ _ _ ih => exact ih done
  | case7 _ _ body _ _ _ ih =>
    cases asked : readAttribute body with
    | error e => rw [asked] at done; cases done
    | ok a =>
      rw [asked] at done
      exact fun _ member => ih a done (List.mem_append_left [a] member)
  | case9 => cases done; exact List.Subset.refl _
  | case2 | case4 | case6 | case8 | case10 => cases done

/-- Of written attributes with a closing bracket in a value, a quote is read into a value. -/
theorem readQualifiers_quoting {read : Compound} {rest' : List Char} :
    ∀ {attrs : List (String × Option String)} {k : Compound},
    (∀ a ∈ attrs, IsName a.1 ∧ ∀ value ∈ a.2, '"' ∉ value.toList) →
    (∃ a ∈ attrs, ∃ value ∈ a.2, ']' ∈ value.toList) →
    readQualifiers k (attrs.flatMap writeAttribute ++ rest) = .ok (read, rest') → read.Quoting
  | [], _, _, ⟨_, member, _⟩, _ => nomatch member
  | (name, wanted) :: attrs, k, writable, ⟨a, member, value, asked, closed⟩, done => by
    obtain ⟨named, unquoted⟩ := writable _ List.mem_cons_self
    rw [List.flatMap_cons, List.append_assoc] at done
    by_cases here : ∃ value ∈ wanted, ']' ∈ value.toList
    · obtain ⟨value, rfl, closed⟩ := here
      obtain ⟨cut, more, quote, same⟩ := readQualifiers_cut (k := k) named (unquoted value rfl) closed
      have kept := readQualifiers_keeps (same.symm.trans done)
      exact ⟨(name, some cut), kept (by simp), cut, rfl, quote⟩
    · have later : ∃ a ∈ attrs, ∃ value ∈ a.2, ']' ∈ value.toList := by
        rcases List.mem_cons.mp member with rfl | member
        · exact absurd ⟨value, asked, closed⟩ here
        · exact ⟨a, member, value, asked, closed⟩
      rw [readQualifiers_attribute named fun value asked closed => here ⟨value, asked, closed⟩] at done
      exact readQualifiers_quoting (fun a member => writable a (List.mem_cons_of_mem _ member)) later done

/-- Of a written compound with a closing bracket in a value, a quote is read into a value. -/
theorem readCompound_quoting {read : Compound} {rest' : List Char} (writable : k.Writable) (closed : k.Bracketed)
    (done : readCompound (k.write ++ rest) = .ok (read, rest')) : read.Quoting := by
  have stop : Stops (k.attrs.flatMap writeAttribute ++ rest) := by
    obtain ⟨a, member, _⟩ := id closed
    obtain ⟨⟨name, wanted⟩, others, some_⟩ := List.exists_cons_of_ne_nil (List.ne_nil_of_mem member)
    rw [some_]
    cases wanted <;> intro d first <;> cases first <;> rfl
  rw [readCompound_write writable stop] at done
  exact readQualifiers_quoting writable.attrs closed done

end

end PageSpec.Page
