import PageSpec.Proofs.Named
import PageSpec.Proofs.Page.Reread
/-!
Outlines of selectors: what stands outside the brackets of attributes. Reading a compound takes at least one
character and nothing but names, their signs and closed attributes, so that of a text which is read the outline is
made of these, of blanks and of signs for children. Each piece of it between commas has something in it, and no sign
for a child at its ends. All other texts are refused.
-/
namespace PageSpec.Page

/-! ## Outlines -/

/-- A text without what stands inside of attributes, where an attribute goes up to the first closing bracket; `none`
if one is never closed. -/
def outlineFrom? (inside : Bool) : List Char → Option (List Char)
  | [] => if inside then none else some []
  | c :: cs =>
    if inside && c != ']' then outlineFrom? true cs
    else (outlineFrom? (!inside && c == '[') cs).map (c :: ·)

def outline? : List Char → Option (List Char) := outlineFrom? false

section
variable {inside : Bool} {c : Char} {cs front back rest o o' : List Char} {p : Char → Bool}

theorem outlineFrom?_append : ∀ {inside : Bool} {front o : List Char}, outlineFrom? inside front = some o →
    ∀ rest, outlineFrom? inside (front ++ rest) = (outline? rest).map (o ++ ·)
  | false, [], _, drawn, rest => by
    cases drawn
    rw [List.nil_append]
    exact Option.map_id'.symm
  | true, [], _, drawn, _ => nomatch drawn
  | inside, c :: front, o, drawn, rest => by
    rw [List.cons_append]
    rw [outlineFrom?] at drawn ⊢
    split at drawn
    · rename_i hidden
      rw [if_pos hidden, outlineFrom?_append drawn]
    · rename_i shown
      obtain ⟨o', later, rfl⟩ := Option.map_eq_some_iff.mp drawn
      rw [if_neg shown, outlineFrom?_append later, Option.map_map]
      rfl

theorem outline?_append (first : outline? front = some o) (then_ : outline? back = some o') :
    outline? (front ++ back) = some (o ++ o') := by
  have both := outlineFrom?_append first back
  rwa [then_] at both

theorem outline?_cons (other : c ≠ '[') (later : outline? cs = some o) : outline? (c :: cs) = some (c :: o) := by
  have letter : outline? [c] = some [c] := by simp [outline?, outlineFrom?, other]
  exact outline?_append letter later

theorem outline?_letters (plain : '[' ∉ cs) : outline? cs = some cs := by
  induction cs with
  | nil => rfl
  | cons c cs ih =>
    obtain ⟨other, later⟩ := not_or.mp (mt List.mem_cons.mpr plain)
    exact outline?_cons (Ne.symm other) (ih later)

/-- An attribute leaves its brackets. -/
theorem outline?_attribute {body : List Char} (unclosed : ']' ∉ body) :
    outline? ('[' :: (body ++ [']'])) = some ['[', ']'] := by
  have closed : outlineFrom? true (body ++ [']']) = some [']'] := by
    induction body with
    | nil => rfl
    | cons c body ih =>
      obtain ⟨other, later⟩ := not_or.mp (mt List.mem_cons.mpr unclosed)
      have hidden : (true && c != ']') = true := by simpa using Ne.symm other
      rw [List.cons_append, outlineFrom?, if_pos hidden, ih later]
  exact congrArg (Option.map ('[' :: ·)) closed

theorem outline?_head? (drawn : outline? cs = some o) : o.head? = cs.head? := by
  cases cs with
  | nil => cases drawn; rfl
  | cons c cs =>
    obtain ⟨o', _, rfl⟩ := Option.map_eq_some_iff.mp drawn
    rfl

theorem outlineFrom?_getLast? : ∀ {inside : Bool} {cs o : List Char}, outlineFrom? inside cs = some o →
    o.getLast? = cs.getLast?
  | false, [], _, drawn => by cases drawn; rfl
  | true, [], _, drawn => nomatch drawn
  | inside, c :: cs, o, drawn => by
    rw [outlineFrom?] at drawn
    split at drawn
    · have some_ : cs ≠ [] := by rintro rfl; cases drawn
      rw [outlineFrom?_getLast? drawn, List.getLast?_cons_of_ne_nil some_]
    · obtain ⟨o', later, rfl⟩ := Option.map_eq_some_iff.mp drawn
      rw [List.getLast?_cons, List.getLast?_cons, outlineFrom?_getLast? later]

theorem outline?_eq_nil (drawn : outline? cs = some []) : cs = [] :=
  List.head?_eq_none_iff.mp (outline?_head? drawn).symm

/-! ## What compounds take -/

/-- A text whose attributes are closed, with characters of one kind outside of them. -/
def Drawn (p : Char → Bool) (cs : List Char) : Prop := ∃ o, outline? cs = some o ∧ ∀ c ∈ o, p c = true

theorem Drawn.nil : Drawn p [] := ⟨[], rfl, List.forall_mem_nil _⟩

theorem Drawn.append (first : Drawn p front) (then_ : Drawn p back) : Drawn p (front ++ back) := by
  obtain ⟨o, drawn, each⟩ := first
  obtain ⟨o', drawn', each'⟩ := then_
  exact ⟨o ++ o', outline?_append drawn drawn', List.forall_mem_append.mpr ⟨each, each'⟩⟩

theorem Drawn.cons (other : c ≠ '[') (kind : p c = true) (later : Drawn p cs) : Drawn p (c :: cs) := by
  obtain ⟨o, drawn, each⟩ := later
  exact ⟨c :: o, outline?_cons other drawn, List.forall_mem_cons.mpr ⟨kind, each⟩⟩

/-- The characters of compounds, but for what stands in attributes. -/
def inCompound (c : Char) : Bool := isNameChar c || c == '*' || c == '#' || c == '.' || c == '[' || c == ']'

/-- What a compound ends before. -/
def breaks (c : Char) : Bool := Text.isBlank c || c == '>' || c == '+' || c == '~'

theorem drawn_name (letters : ∀ c ∈ cs, isNameChar c = true) : Drawn inCompound cs := by
  refine ⟨cs, outline?_letters fun bracket => absurd (letters _ bracket) (by decide), fun c member => ?_⟩
  simp [inCompound, letters c member]

/-- What the reading of a compound takes from a text: a part of one kind, up to the end or to what ends compounds. -/
structure Takes (cs taken rest : List Char) : Prop where
  split : cs = taken ++ rest
  drawn : Drawn inCompound taken
  ends : ∀ c ∈ rest.head?, breaks c = true

theorem takes_nothing (ends : ∀ c ∈ rest.head?, breaks c = true) : Takes rest [] rest := ⟨rfl, .nil, ends⟩

theorem Takes.after {front taken : List Char} (takes : Takes cs taken rest) (first : Drawn inCompound front) :
    Takes (front ++ cs) (front ++ taken) rest where
  split := by rw [takes.split, List.append_assoc]
  drawn := first.append takes.drawn
  ends := takes.ends

theorem Takes.name {taken : List Char} (takes : Takes (cs.dropWhile isNameChar) taken rest) :
    Takes cs (cs.takeWhile isNameChar ++ taken) rest := by
  have letters : ∀ c ∈ cs.takeWhile isNameChar, isNameChar c = true := fun _ => List.mem_takeWhile_imp
  have named := takes.after (drawn_name letters)
  rwa [List.takeWhile_append_dropWhile] at named

theorem Takes.sign {taken : List Char} (other : c ≠ '[') (kind : inCompound c = true) (takes : Takes cs taken rest) :
    Takes (c :: cs) (c :: taken) rest :=
  takes.after (Drawn.nil.cons other kind)

/-- Something is taken unless the text begins with what ends compounds. -/
theorem Takes.shorter {taken : List Char} (takes : Takes (c :: cs) taken rest) (letter : breaks c = false) :
    rest.length < (c :: cs).length := by
  rw [takes.split, List.length_append]
  cases taken with
  | nil =>
    have ended := takes.ends c (by rw [← List.nil_append rest, ← takes.split]; rfl)
    cases letter.symm.trans ended
  | cons d taken =>
    rw [List.length_cons]
    omega

theorem readQualifiers_takes {k read : Compound} (done : readQualifiers k cs = .ok (read, rest)) :
    ∃ taken, Takes cs taken rest := by
  fun_induction readQualifiers k cs with
  | case1 => cases done; exact ⟨[], takes_nothing (by simp)⟩
  | case3 k r name _ ih =>
    obtain ⟨taken, takes⟩ := ih done
    exact ⟨_, takes.name.sign (by decide) (by decide)⟩
  | case5 k r name _ ih =>
    obtain ⟨taken, takes⟩ := ih done
    exact ⟨_, takes.name.sign (by decide) (by decide)⟩
  | case7 k r body _ _ closed ih =>
    cases asked : readAttribute body with
    | error e => rw [asked] at done; cases done
    | ok a =>
      rw [asked] at done
      obtain ⟨taken, takes⟩ := ih a done
      have bracket : ']' ∈ r := by
        by_contra open_
        cases closed.symm.trans (Text.without_stop open_)
      obtain ⟨inner, after, rfl, unclosed⟩ := List.eq_append_cons_of_mem bracket
      have same : body = inner := (Text.before_stop unclosed after).1
      have left : (inner ++ ']' :: after).drop (body.length + 1) = after := by simp [same]
      rw [left] at takes
      have closed : Drawn inCompound ('[' :: (inner ++ [']'])) :=
        ⟨_, outline?_attribute unclosed, List.forall_mem_cons.mpr ⟨rfl, List.forall_mem_singleton.mpr rfl⟩⟩
      have named := takes.after closed
      rw [List.cons_append, List.append_assoc] at named
      exact ⟨_, named⟩
  | case9 k d r _ _ _ _ ended =>
    cases done
    refine ⟨[], takes_nothing ?_⟩
    rintro c ⟨⟩
    exact ended
  | case2 | case4 | case6 | case8 | case10 => cases done

theorem readCompound_takes {read : Compound} (done : readCompound cs = .ok (read, rest)) :
    ∃ taken, Takes cs taken rest := by
  unfold readCompound at done
  split at done
  · obtain ⟨taken, takes⟩ := readQualifiers_takes done
    exact ⟨_, takes.sign (by decide) (by decide)⟩
  · dsimp only at done
    split at done
    · exact readQualifiers_takes done
    · obtain ⟨taken, takes⟩ := readQualifiers_takes done
      exact ⟨_, takes.name⟩

/-- A compound that is read where one can begin takes a character. -/
theorem readCompound_shorter {read : Compound} (letter : breaks c = false)
    (done : readCompound (c :: cs) = .ok (read, rest)) : rest.length < (c :: cs).length := by
  obtain ⟨taken, takes⟩ := readCompound_takes done
  exact takes.shorter letter

/-! ## What groups are made of -/

/-- The characters of groups, but for what stands in attributes. -/
def inGroup (c : Char) : Bool := inCompound c || Text.isBlank c || c == '>'

theorem inGroup_of_inCompound (kind : inCompound c = true) : inGroup c = true := by
  simp [inGroup, kind]

theorem getLast?_append_ne {e : Char} (behind : back.getLast? ≠ some e) (before : back = [] → front.getLast? ≠ some e) :
    (front ++ back).getLast? ≠ some e := by
  rw [List.getLast?_append]
  cases last : back.getLast? with
  | none => exact before (List.getLast?_eq_none_iff.mp last)
  | some c => rwa [last] at behind

theorem getLast?_cons_ne {e : Char} (behind : back.getLast? ≠ some e) (before : back = [] → c ≠ e) :
    (c :: back).getLast? ≠ some e := by
  rw [← List.singleton_append]
  exact getLast?_append_ne behind fun none same => before none (Option.some.inj same)

/-- A chain that is read has its attributes closed, and ends with no sign for a child. -/
theorem readChain_outline {sofar : Option Chain} {pending : Option Combinator} {g : Chain}
    (done : readChain sofar pending cs = .ok g) :
    ∃ o, outline? cs = some o ∧ (∀ c ∈ o, inGroup c = true) ∧ o.getLast? ≠ some '>' := by
  fun_induction readChain sofar pending cs with
  | case2 => exact ⟨[], rfl, List.forall_mem_nil _, by simp⟩
  | case4 sofar pending c r blank ih =>
    obtain ⟨o, drawn, each, last⟩ := ih done
    have other : c ≠ '[' := by rintro rfl; exact absurd blank (by decide)
    have child : c ≠ '>' := by rintro rfl; exact absurd blank (by decide)
    refine ⟨c :: o, outline?_cons other drawn, List.forall_mem_cons.mpr ⟨by simp [inGroup, blank], each⟩, ?_⟩
    exact getLast?_cons_ne last fun _ => child
  | case6 sofar pending r _ some_ ih =>
    obtain ⟨o, drawn, each, last⟩ := ih done
    refine ⟨'>' :: o, outline?_cons (by decide) drawn, List.forall_mem_cons.mpr ⟨by decide, each⟩, ?_⟩
    refine getLast?_cons_ne last ?_
    rintro rfl _
    -- A text that ends here leaves the sign without a compound.
    rw [outline?_eq_nil drawn, readChain.eq_def] at done
    cases sofar <;> cases done
  | case9 sofar pending c r _ _ _ k rest took _ ih =>
    obtain ⟨o, drawn, each, last⟩ := ih done
    obtain ⟨taken, takes⟩ := readCompound_takes took
    obtain ⟨o', drawn', kinds⟩ := takes.drawn
    refine ⟨o' ++ o, takes.split ▸ outline?_append drawn' drawn, ?_, ?_⟩
    · exact List.forall_mem_append.mpr ⟨fun c member => inGroup_of_inCompound (kinds c member), each⟩
    · exact getLast?_append_ne last fun _ same => absurd (kinds '>' (List.mem_of_getLast? same)) (by decide)
  | case1 | case3 | case5 | case7 | case8 | case10 => cases done

end

/-! ## Groups -/

/-- Nothing but blanks, or a sign for a child at an end. -/
def Misplaced (cs : List Char) : Prop :=
  Text.trimChars cs = [] ∨ (Text.trimChars cs).head? = some '>' ∨ (Text.trimChars cs).getLast? = some '>'

/-- Blanks around a text count neither in it nor in its outline. -/
theorem trimChars_outline {group o : List Char} (some_ : Text.trimChars group ≠ [])
    (drawn : outline? (Text.trimChars group) = some o) : ∃ around, outline? group = some around ∧
      Text.trimChars around = o ∧ ∀ c ∈ around, c ∈ o ∨ Text.isBlank c = true := by
  obtain ⟨lead, trail, split, before, behind⟩ := Text.trimChars_split group
  obtain ⟨⟨c, more, begins, first⟩, ⟨front, d, ends, last⟩⟩ := (Text.trimChars_nil_or group).resolve_left some_
  have blanks {cs : List Char} (blank : ∀ c ∈ cs, Text.isBlank c = true) : outline? cs = some cs :=
    outline?_letters fun bracket => absurd (blank _ bracket) (by decide)
  have o_begins : o.head? = some c := by rw [outline?_head? drawn, begins]; rfl
  have o_ends : o.getLast? = some d := by rw [outlineFrom?_getLast? drawn, ends, List.getLast?_concat]
  obtain ⟨more', begins'⟩ := List.head?_eq_some_iff.mp o_begins
  obtain ⟨front', ends'⟩ := List.getLast?_eq_some_iff.mp o_ends
  refine ⟨lead ++ (o ++ trail), ?_, Text.trimChars_around before behind ⟨c, more', begins', first⟩
    ⟨front', d, ends', last⟩, ?_⟩
  · conv => lhs; rw [split]
    exact outline?_append (blanks before) (outline?_append drawn (blanks behind))
  · intro e member
    rcases List.mem_append.mp member with ahead | member
    · exact .inr (before e ahead)
    · exact (List.mem_append.mp member).imp_right (behind e)

/-- A group that is read has an outline of its characters, with nothing misplaced in the outline or in the group. -/
theorem readGroup_outline {group : List Char} {g : Chain} (done : readGroup group = .ok g) :
    ¬ Misplaced group ∧ ∃ o, outline? group = some o ∧ (∀ c ∈ o, inGroup c = true) ∧ ¬ Misplaced o := by
  unfold readGroup at done
  dsimp only at done
  split at done
  · cases done
  rename_i some_
  rw [List.isEmpty_iff] at some_
  obtain ⟨o, drawn, each, last⟩ := readChain_outline done
  have first : (Text.trimChars group).head? ≠ some '>' := by
    intro child
    obtain ⟨more, same⟩ := List.head?_eq_some_iff.mp child
    have refused : readChain none none ('>' :: more) = .error .leadingCombinator := by
      rw [readChain]
      rfl
    rw [same, refused] at done
    cases done
  obtain ⟨around, whole, inner, kinds⟩ := trimChars_outline some_ drawn
  refine ⟨?_, around, whole, ?_, ?_⟩
  · rintro (empty | child | child)
    · exact some_ empty
    · exact first child
    · exact last ((outlineFrom?_getLast? drawn).trans child)
  · intro c member
    rcases kinds c member with inside | blank
    · exact each c inside
    · simp [inGroup, blank]
  · unfold Misplaced
    rw [inner, outline?_head? drawn]
    rintro (empty | child | child)
    · exact some_ (outline?_eq_nil (empty ▸ drawn))
    · exact first child
    · exact last child

/-! ## Texts that are no selectors -/

/-- The groups of a text, at the commas outside of quotes and brackets. -/
def groupsOf (cs : List Char) : List (List Char) := (splitGroups none 0 cs).1 :: (splitGroups none 0 cs).2

/-- A piece of a text between commas: commas outside of quotes and brackets, or outside of attributes. -/
inductive Piece (cs : List Char) : List Char → Prop
  | split {g : List Char} (member : g ∈ groupsOf cs) : Piece cs g
  | outer {o g : List Char} (drawn : outline? cs = some o) (member : g ∈ Text.splitAll ',' o) : Piece cs g

/-- What makes a text no selector: an attribute that is never closed, the sign of a pseudo-class or of a combinator
that is not supported, or a piece that is empty or has a combinator at an end. -/
inductive Faulty (cs : List Char) : Prop
  | openAttribute (unclosed : outline? cs = none)
  | pseudoClass {o : List Char} (drawn : outline? cs = some o) (sign : ':' ∈ o)
  | unsupported {o : List Char} {c : Char} (drawn : outline? cs = some o) (sign : c ∈ o) (other : c = '+' ∨ c = '~')
  | misplaced {g : List Char} (piece : Piece cs g) (misplaced : Misplaced g)

/-- The groups and the commas between them make up the text. -/
theorem splitGroups_joined : ∀ (quote : Option Char) (depth : Nat) (cs : List Char),
    [','].intercalate ((splitGroups quote depth cs).1 :: (splitGroups quote depth cs).2) = cs
  | _, _, [] => rfl
  | quote, depth, c :: cs => by
    have kept (q : Option Char) (d : Nat) :
        [','].intercalate ((c :: (splitGroups q d cs).1) :: (splitGroups q d cs).2) = c :: cs := by
      conv => rhs; rw [← splitGroups_joined q d cs]
      cases (splitGroups q d cs).2 with
      | nil => rw [List.intercalate_singleton, List.intercalate_singleton]
      | cons g gs => rw [List.intercalate_cons_cons, List.intercalate_cons_cons]; rfl
    unfold splitGroups
    dsimp only
    cases quote with
    | some q => exact kept _ _
    | none =>
      dsimp only
      split
      · exact kept _ _
      split
      · exact kept _ _
      split
      · exact kept _ _
      split
      · rename_i comma
        rw [List.intercalate_cons_cons, splitGroups_joined none 0 cs, comma.1]
        rfl
      · exact kept _ _

/-- The outline of groups with commas between them. -/
theorem outline?_intercalate {gs os : List (List Char)} (drawn : List.Forall₂ (fun g o => outline? g = some o) gs os) :
    outline? ([','].intercalate gs) = some ([','].intercalate os) := by
  induction drawn with
  | nil => rfl
  | @cons g o gs os first rest ih =>
    cases rest with
    | nil => rwa [List.intercalate_singleton, List.intercalate_singleton]
    | cons second others =>
      rw [List.intercalate_cons_cons, List.intercalate_cons_cons, List.append_assoc, List.append_assoc]
      exact outline?_append first (outline?_cons (by decide) ih)

/-- Groups that are read have outlines of their characters, with nothing misplaced in them. -/
theorem exists_outlines {gs : List (List Char)} {chains : List Chain}
    (read : List.Forall₂ (fun g chain => readGroup g = .ok chain) gs chains) :
    (∀ g ∈ gs, ¬ Misplaced g) ∧ ∃ os, List.Forall₂ (fun g o => outline? g = some o) gs os ∧
      ∀ o ∈ os, (∀ c ∈ o, inGroup c = true) ∧ ¬ Misplaced o := by
  induction read with
  | nil => exact ⟨List.forall_mem_nil _, [], .nil, List.forall_mem_nil _⟩
  | cons first _ ih =>
    obtain ⟨placed, o, drawn, proper⟩ := readGroup_outline first
    obtain ⟨others, os, drawns, propers⟩ := ih
    exact ⟨List.forall_mem_cons.mpr ⟨placed, others⟩, o :: os, .cons drawn drawns,
      List.forall_mem_cons.mpr ⟨proper, propers⟩⟩

/-- A text that is read has an outline of the characters of groups and of commas, and nothing misplaced in a piece. -/
theorem readGroups_outline {cs : List Char} {chains : List Chain} (done : readGroups cs = .ok chains) :
    (∃ o, outline? cs = some o ∧ ∀ c ∈ o, c = ',' ∨ inGroup c = true) ∧ ∀ g, Piece cs g → ¬ Misplaced g := by
  obtain ⟨placed, os, drawns, propers⟩ := exists_outlines (mapM_eq_ok_iff.mp (show (groupsOf cs).mapM readGroup = _ from done))
  have drawn : outline? cs = some ([','].intercalate os) := by
    conv => lhs; rw [← splitGroups_joined none 0 cs]
    exact outline?_intercalate drawns
  obtain ⟨o, others, _, _, rfl⟩ := List.forall₂_cons_left_iff.mp drawns
  have pieces : Text.splitAll ',' ([','].intercalate (o :: others)) = o :: others :=
    Text.splitAll_intercalate fun piece member comma => absurd ((propers piece member).1 ',' comma) (by decide)
  refine ⟨⟨_, drawn, fun c member => ?_⟩, ?_⟩
  · rcases Text.mem_of_mem_intercalate member with comma | ⟨piece, listed, inside⟩
    · exact .inl (List.mem_singleton.mp comma)
    · exact .inr ((propers piece listed).1 c inside)
  · intro g piece
    cases piece with
    | split member => exact placed g member
    | outer drawn' member =>
      cases drawn.symm.trans drawn'
      rw [pieces] at member
      exact (propers g member).2

/-- A faulty text is refused. -/
theorem readGroups_faulty {cs : List Char} (faulty : Faulty cs) : ∃ e, readGroups cs = .error e := by
  cases done : readGroups cs with
  | error e => exact ⟨e, rfl⟩
  | ok chains =>
    obtain ⟨⟨o, drawn, letters⟩, pieces⟩ := readGroups_outline done
    exfalso
    cases faulty with
    | openAttribute unclosed => cases unclosed.symm.trans drawn
    | pseudoClass drawn' sign =>
      cases drawn.symm.trans drawn'
      exact absurd (letters ':' sign) (by decide)
    | unsupported drawn' sign other =>
      cases drawn.symm.trans drawn'
      rcases other with rfl | rfl <;> exact absurd (letters _ sign) (by decide)
    | misplaced piece misplaced => exact pieces _ piece misplaced

end PageSpec.Page
