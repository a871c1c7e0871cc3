import PageSpec.Proofs.Page.Written
/-!
Reading written selectors. The groups come apart at the commas between them, for the commas in values stand
between quotes, and each group is read compound by compound. So a selector is read back as it was written
exactly if no value in it has a closing bracket.
-/
namespace PageSpec.Page

/-! ## Chains -/

section
variable {sofar : Option Chain} {pending : Option Combinator} {left g : Chain} {k : Compound} {rest : List Char}
  {l : Layout}

theorem opens_letter {d : Char} (opening : opens d = true) :
    Text.isBlank d = false ∧ d ≠ '>' ∧ ¬ (d = '+' ∨ d = '~') := by
  refine ⟨?_, ?_, ?_⟩
  · unfold opens at opening
    simp only [Bool.or_eq_true, beq_iff_eq] at opening
    rcases opening with ((letter | rfl) | rfl) | rfl
    · exact isBlank_of_isNameChar letter
    all_goals decide
  · rintro rfl
    cases opening
  · rintro (rfl | rfl) <;> cases opening

/-- Where a compound begins, one is read. -/
theorem readChain_compound {cs : List Char} (opening : ∃ d r, cs = d :: r ∧ opens d = true) :
    readChain sofar pending cs = match readCompound cs with
      | .error e => .error e
      | .ok (k, rest) =>
        if rest.length < cs.length then readChain (some (.extend sofar pending k)) none rest
        else .error .incomplete := by
  obtain ⟨d, r, rfl, opening⟩ := opening
  obtain ⟨letter, child, sign⟩ := opens_letter opening
  rw [readChain, letter, if_neg Bool.false_ne_true, if_neg child]
  exact (if_neg sign).trans (by cases readCompound (d :: r) <;> rfl)

theorem Compound.Writable.write_rest_opens (writable : k.Writable) (rest : List Char) :
    ∃ d r, k.write ++ rest = d :: r ∧ opens d = true := by
  obtain ⟨d, cs, written, opening⟩ := writable.write_opens
  exact ⟨d, cs ++ rest, by rw [written]; rfl, opening⟩

/-- A written compound without closing brackets in its values is taken into the chain. -/
theorem readChain_write (writable : k.Writable) (open_ : ¬ k.Bracketed) (ends : Ends rest) :
    readChain sofar pending (k.write ++ rest) = readChain (some (.extend sofar pending k)) none rest := by
  have shorter : rest.length < (k.write ++ rest).length := by
    obtain ⟨d, cs, written, _⟩ := writable.write_opens
    rw [written]
    simp only [List.cons_append, List.length_cons, List.length_append]
    omega
  rw [readChain_compound (writable.write_rest_opens rest), readCompound_back writable open_ ends]
  exact if_pos shorter

/-- Blanks behind a compound ask for a descendant, unless something else is asked for. -/
theorem readChain_blanks : ∀ {blanks : List Char} {pending : Option Combinator},
    (∀ c ∈ blanks, Text.isBlank c = true) → readChain (some left) pending (blanks ++ rest) =
      readChain (some left) (if blanks = [] then pending else some (pending.getD .descendant)) rest
  | [], _, _ => rfl
  | c :: blanks, pending, blank => by
    have first : Text.isBlank c = true := blank c List.mem_cons_self
    rw [List.cons_append, readChain, if_pos first,
      readChain_blanks fun d member => blank d (List.mem_cons_of_mem c member)]
    cases pending <;> cases blanks <;> rfl

theorem readChain_child : readChain (some left) pending ('>' :: rest) = readChain (some left) (some .child) rest := by
  rw [readChain]
  rfl

/-- What is written between two compounds asks for their combinator. -/
theorem readChain_between (l : Layout) (k : Combinator) :
    readChain (some left) none (l.between k ++ rest) = readChain (some left) (some k) rest := by
  cases k with
  | descendant =>
    rw [Layout.between, readChain_blanks l.gap_blank, if_neg l.gap_some]
    rfl
  | child =>
    rw [Layout.between, List.append_assoc, readChain_blanks l.ahead_blank, List.cons_append, readChain_child,
      readChain_blanks l.behind_blank]
    split <;> rfl

theorem between_ends (l : Layout) (k : Combinator) : Ends (l.between k ++ rest) := by
  cases k with
  | descendant =>
    obtain ⟨c, cs, gap⟩ := List.exists_cons_of_ne_nil l.gap_some
    intro d first
    rw [Layout.between, gap] at first
    cases first
    exact .inl (l.gap_blank _ (gap ▸ List.mem_cons_self))
  | child =>
    intro d first
    rw [Layout.between] at first
    cases ahead : l.ahead with
    | nil =>
      rw [ahead] at first
      cases first
      exact .inr rfl
    | cons c cs =>
      rw [ahead] at first
      cases first
      exact .inl (l.ahead_blank _ (ahead ▸ List.mem_cons_self))

/-- A chain asks for a value with a closing bracket. -/
def Chain.Bracketed (g : Chain) : Prop := ∃ k ∈ g.compounds, k.Bracketed

instance (g : Chain) : Decidable g.Bracketed := inferInstanceAs (Decidable (∃ k ∈ g.compounds, k.Bracketed))

theorem Chain.writable_link {k : Combinator} {c : Compound} :
    (Chain.link left k c).Writable ↔ left.Writable ∧ c.Writable := by
  simp [Chain.Writable, compounds, or_imp, forall_and]

theorem Chain.bracketed_link {k : Combinator} {c : Compound} :
    (Chain.link left k c).Bracketed ↔ left.Bracketed ∨ c.Bracketed := by
  simp [Chain.Bracketed, compounds, or_and_right, exists_or]

/-- A written chain without closing brackets in its values is read back. -/
theorem readChain_back (l : Layout) : ∀ {g : Chain} {rest : List Char}, g.Writable → ¬ g.Bracketed → Ends rest →
    readChain none none (g.write l ++ rest) = readChain (some g) none rest
  | .one c, rest, writable, open_, ends => by
    have here : c ∈ (Chain.one c).compounds := List.mem_singleton_self c
    exact readChain_write (writable c here) (fun bracketed => open_ ⟨c, here, bracketed⟩) ends
  | .link left k c, rest, writable, open_, ends => by
    obtain ⟨before, here⟩ := Chain.writable_link.mp writable
    rw [Chain.bracketed_link, not_or] at open_
    rw [Chain.write, List.append_assoc, List.append_assoc, readChain_back l before open_.1 (between_ends l k),
      readChain_between, readChain_write here open_.2 ends]
    rfl

/-- Reading on adds to the compounds of a chain. -/
theorem readChain_keeps {read : Chain} {cs : List Char} (done : readChain sofar pending cs = .ok read) :
    ∀ g, sofar = some g → g.compounds ⊆ read.compounds := by
  fun_induction readChain sofar pending cs with
  | case2 chain => intro g same; cases same; cases done; exact List.Subset.refl _
  | case4 _ _ _ _ _ ih => exact ih done
  | case6 _ _ _ _ _ ih => exact ih done
  | case9 sofar pending _ _ _ _ _ k _ _ _ ih =>
    rintro g rfl
    exact fun _ member => ih done _ rfl (List.mem_append_left [k] member)
  | case1 | case3 | case5 | case7 | case8 | case10 => cases done

theorem readChain_write_quoting {read : Chain} (writable : k.Writable) (bracketed : k.Bracketed)
    (done : readChain sofar pending (k.write ++ rest) = .ok read) : ∃ k ∈ read.compounds, k.Quoting := by
  rw [readChain_compound (writable.write_rest_opens rest)] at done
  cases found : readCompound (k.write ++ rest) with
  | error e => rw [found] at done; cases done
  | ok both =>
    obtain ⟨cut, more⟩ := both
    rw [found] at done
    dsimp only at done
    split at done
    · have last : cut ∈ (Chain.extend sofar pending cut).compounds := by
        cases sofar <;> simp [Chain.extend, Chain.compounds]
      exact ⟨cut, readChain_keeps done _ rfl last, readCompound_quoting writable bracketed found⟩
    · cases done

/-- Of a written chain with a closing bracket in a value, a quote is read into a value. -/
theorem readChain_quoting (l : Layout) {read : Chain} : ∀ {g : Chain} {rest : List Char}, g.Writable → g.Bracketed →
    readChain none none (g.write l ++ rest) = .ok read → ∃ k ∈ read.compounds, k.Quoting
  | .one c, rest, writable, ⟨k, member, bracketed⟩, done => by
    cases List.mem_singleton.mp member
    exact readChain_write_quoting (writable c (List.mem_singleton_self c)) bracketed done
  | .link left k c, rest, writable, bracketed, done => by
    obtain ⟨before, here⟩ := Chain.writable_link.mp writable
    rw [Chain.write, List.append_assoc, List.append_assoc] at done
    by_cases earlier : left.Bracketed
    · exact readChain_quoting l before earlier done
    · have last : c.Bracketed := (Chain.bracketed_link.mp bracketed).resolve_left earlier
      rw [readChain_back l before earlier (between_ends l k), readChain_between] at done
      exact readChain_write_quoting here last done

/-- A written chain is read back by itself exactly if it has no closing bracket in a value. -/
theorem readChain_eq_iff (l : Layout) {g : Chain} (writable : g.Writable) :
    readChain none none (g.write l) = .ok g ↔ ¬ g.Bracketed := by
  rw [← List.append_nil (g.write l)]
  constructor
  · intro done bracketed
    obtain ⟨k, member, quoting⟩ := readChain_quoting l writable bracketed done
    exact (writable k member).not_quoting quoting
  · intro open_
    have atEnd : Ends [] := by simp [Ends]
    rw [readChain_back l writable open_ atEnd, readChain]
    rfl

end

/-! ## Groups -/

/-- Splitting goes through a text without coming upon the end of a group, from one depth of brackets to another. -/
def GoesThrough (depth : Nat) (cs : List Char) (depth' : Nat) : Prop :=
  ∀ rest, splitGroups none depth (cs ++ rest) =
    (cs ++ (splitGroups none depth' rest).1, (splitGroups none depth' rest).2)

/-- The characters that splitting looks at. -/
def divides (c : Char) : Bool := c == '"' || c == '\'' || c == '[' || c == '(' || c == ']' || c == ')' || c == ','

section
variable {d d' d'' : Nat} {cs ds : List Char} {c : Char}

theorem GoesThrough.nothing : GoesThrough d [] d := fun _ => rfl

theorem GoesThrough.append (first : GoesThrough d cs d') (then_ : GoesThrough d' ds d'') :
    GoesThrough d (cs ++ ds) d'' := by
  intro rest
  rw [List.append_assoc, first, then_, List.append_assoc]

theorem divides_of_isNameChar (letter : isNameChar c = true) : divides c = false := by
  cases sign : divides c with
  | false => rfl
  | true =>
    unfold divides at sign
    simp only [Bool.or_eq_true, beq_iff_eq] at sign
    rcases sign with (((((rfl | rfl) | rfl) | rfl) | rfl) | rfl) | rfl <;> cases letter

theorem divides_of_isBlank (blank : Text.isBlank c = true) : divides c = false := by
  cases sign : divides c with
  | false => rfl
  | true =>
    unfold divides at sign
    simp only [Bool.or_eq_true, beq_iff_eq] at sign
    rcases sign with (((((rfl | rfl) | rfl) | rfl) | rfl) | rfl) | rfl <;> exact absurd blank (by decide)

theorem goesThrough_letter (plain : divides c = false) : GoesThrough d [c] d := by
  intro rest
  unfold divides at plain
  simp only [Bool.or_eq_false_iff, beq_eq_false_iff_ne, ne_eq] at plain
  obtain ⟨⟨⟨⟨⟨⟨_, _⟩, _⟩, _⟩, _⟩, _⟩, _⟩ := plain
  rw [List.singleton_append, splitGroups]
  simp [*]

theorem goesThrough_letters : ∀ {cs : List Char}, (∀ c ∈ cs, divides c = false) → GoesThrough d cs d
  | [], _ => .nothing
  | c :: _, plain => (goesThrough_letter (plain c List.mem_cons_self)).append
      (goesThrough_letters fun other member => plain other (List.mem_cons_of_mem c member))

theorem goesThrough_blanks (blank : ∀ c ∈ cs, Text.isBlank c = true) : GoesThrough d cs d :=
  goesThrough_letters fun c member => divides_of_isBlank (blank c member)

theorem goesThrough_name {name : String} (named : IsName name) : GoesThrough d name.toList d :=
  goesThrough_letters fun c member => divides_of_isNameChar (named.2 c member)

theorem goesThrough_open : GoesThrough d ['['] (d + 1) := by
  intro rest
  rfl

theorem goesThrough_close : GoesThrough (d + 1) [']'] d := by
  intro rest
  rfl

/-- Between quotes nothing divides. -/
theorem goesThrough_quoted (unquoted : '"' ∉ cs) : GoesThrough d ('"' :: (cs ++ ['"'])) d := by
  have inside (rest : List Char) : splitGroups (some '"') d (cs ++ '"' :: rest) =
      (cs ++ '"' :: (splitGroups none d rest).1, (splitGroups none d rest).2) := by
    induction cs with
    | nil => rfl
    | cons c cs ih =>
      rw [List.mem_cons, not_or] at unquoted
      rw [List.cons_append, splitGroups]
      simp [ih unquoted.2, Ne.symm unquoted.1]
  intro rest
  have written : '"' :: (cs ++ ['"']) ++ rest = '"' :: (cs ++ '"' :: rest) := by simp
  rw [written, splitGroups]
  simp [inside]

theorem goesThrough_attribute {a : String × Option String} (named : IsName a.1)
    (unquoted : ∀ value ∈ a.2, '"' ∉ value.toList) : GoesThrough d (writeAttribute a) d := by
  obtain ⟨name, _ | value⟩ := a
  · have written : writeAttribute (name, none) = ['['] ++ (name.toList ++ [']']) := rfl
    rw [written]
    exact goesThrough_open.append ((goesThrough_name named).append goesThrough_close)
  · have written : writeAttribute (name, some value) =
        ['['] ++ (name.toList ++ (['='] ++ ('"' :: (value.toList ++ ['"']) ++ [']']))) := by
      simp [writeAttribute]
    rw [written]
    exact goesThrough_open.append ((goesThrough_name named).append ((goesThrough_letter rfl).append
      ((goesThrough_quoted (unquoted value rfl)).append goesThrough_close)))

theorem goesThrough_flatMap {α : Type} {f : α → List Char} : ∀ {xs : List α},
    (∀ x ∈ xs, GoesThrough d (f x) d) → GoesThrough d (xs.flatMap f) d
  | [], _ => .nothing
  | x :: _, each => (each x List.mem_cons_self).append
      (goesThrough_flatMap fun y member => each y (List.mem_cons_of_mem x member))

theorem goesThrough_compound {k : Compound} (writable : k.Writable) : GoesThrough d k.write d := by
  have tag : GoesThrough d ((k.tag.map String.toList).getD []) d := by
    cases asked : k.tag with
    | none => exact .nothing
    | some tag => exact goesThrough_name (writable.tag tag asked).1
  have id : GoesThrough d ((k.id.map fun id => '#' :: id.toList).getD []) d := by
    cases asked : k.id with
    | none => exact .nothing
    | some id => exact (goesThrough_letter rfl).append (goesThrough_name (writable.id id asked))
  have classes : GoesThrough d (k.classes.flatMap fun name => '.' :: name.toList) d :=
    goesThrough_flatMap fun name member =>
      (goesThrough_letter rfl).append (goesThrough_name (writable.classes name member))
  have attrs : GoesThrough d (k.attrs.flatMap writeAttribute) d := goesThrough_flatMap fun a member =>
    goesThrough_attribute (writable.attrs a member).1 (writable.attrs a member).2
  exact tag.append (id.append (classes.append attrs))

theorem goesThrough_between (l : Layout) : ∀ k : Combinator, GoesThrough d (l.between k) d
  | .descendant => goesThrough_blanks l.gap_blank
  | .child => (goesThrough_blanks l.ahead_blank).append
      ((goesThrough_letter rfl).append (goesThrough_blanks l.behind_blank))

theorem goesThrough_chain (l : Layout) : ∀ {g : Chain}, g.Writable → GoesThrough d (g.write l) d
  | .one c, writable => goesThrough_compound (writable c (List.mem_singleton_self c))
  | .link _ k _, writable =>
    have both := Chain.writable_link.mp writable
    (goesThrough_chain l both.1).append ((goesThrough_between l k).append (goesThrough_compound both.2))

end

/-! ## Selectors -/

/-- One group of a selector text, without the blanks around it. -/
def readGroup (group : List Char) : Except SelectorError Chain :=
  let t := Text.trimChars group
  if t.isEmpty then .error .emptyGroup else readChain none none t

/-- All groups that a text splits into. -/
def readGroups (cs : List Char) : Except SelectorError (List Chain) :=
  ((splitGroups none 0 cs).1 :: (splitGroups none 0 cs).2).mapM readGroup

theorem parseSelector_eq (selector : String) : parseSelector selector = readGroups selector.toList := rfl

section
variable {l : Layout} {g : Chain} {k : Compound}

/-- Written texts end with no blank. -/
def Closes (cs : List Char) : Prop := ∀ d ∈ cs.getLast?, Text.isBlank d = false

theorem Closes.behind {front back : List Char} (closes : Closes back) (some_ : back ≠ []) :
    Closes (front ++ back) := by
  intro d last
  rw [List.getLast?_append_of_ne_nil front some_] at last
  exact closes d last

theorem Closes.append {front back : List Char} (first : Closes front) (then_ : Closes back) :
    Closes (front ++ back) := by
  rcases List.eq_nil_or_concat back with rfl | ⟨_, _, rfl⟩
  · rwa [List.append_nil]
  · exact then_.behind (by simp)

theorem Closes.flatMap {α : Type} {f : α → List Char} : ∀ {xs : List α}, (∀ x ∈ xs, Closes (f x)) →
    Closes (xs.flatMap f)
  | [], _ => nofun
  | x :: _, each => (each x List.mem_cons_self).append
      (Closes.flatMap fun y member => each y (List.mem_cons_of_mem x member))

theorem closes_letter {d : Char} (letter : Text.isBlank d = false) : Closes [d] := by
  rintro e ⟨⟩
  exact letter

theorem IsName.closes {name : String} (named : IsName name) : Closes name.toList := fun _ last =>
  isBlank_of_isNameChar (named.2 _ (List.mem_of_getLast? last))

theorem closes_attribute (a : String × Option String) : Closes (writeAttribute a) := by
  have bracket : Closes [']'] := closes_letter rfl
  obtain ⟨name, _ | value⟩ := a
  · have written : writeAttribute (name, none) = ('[' :: name.toList) ++ [']'] := rfl
    exact written ▸ bracket.behind (by simp)
  · have written : writeAttribute (name, some value) =
        ('[' :: (name.toList ++ '=' :: '"' :: (value.toList ++ ['"']))) ++ [']'] := by
      simp [writeAttribute]
    exact written ▸ bracket.behind (by simp)

theorem closes_compound (writable : k.Writable) : Closes k.write := by
  have tag : Closes ((k.tag.map String.toList).getD []) := by
    cases asked : k.tag with
    | none => exact nofun
    | some tag => exact (writable.tag tag asked).1.closes
  have id : Closes ((k.id.map fun id => '#' :: id.toList).getD []) := by
    cases asked : k.id with
    | none => exact nofun
    | some id => exact (closes_letter rfl).append (writable.id id asked).closes
  have classes : Closes (k.classes.flatMap fun name => '.' :: name.toList) :=
    .flatMap fun name member => (closes_letter rfl).append (writable.classes name member).closes
  exact tag.append (id.append (classes.append (.flatMap fun a _ => closes_attribute a)))

theorem closes_chain : ∀ {g : Chain}, g.Writable → Closes (g.write l)
  | .one c, writable => closes_compound (writable c (List.mem_singleton_self c))
  | .link left k c, writable => by
    have here := (Chain.writable_link.mp writable).2
    obtain ⟨d, cs, written, _⟩ := here.write_opens
    have some_ : c.write ≠ [] := by simp [written]
    exact ((closes_compound here).behind some_).behind (by simp [some_])

theorem chain_opens : ∀ {g : Chain}, g.Writable → ∃ d cs, g.write l = d :: cs ∧ opens d = true
  | .one c, writable => (writable c (List.mem_singleton_self c)).write_opens
  | .link left k c, writable => by
    obtain ⟨d, cs, written, opening⟩ := chain_opens (Chain.writable_link.mp writable).1
    exact ⟨d, _, congrArg (· ++ _) written, opening⟩

/-- The blanks around a written group do not count. -/
theorem readGroup_write (l : Layout) (lead trail : List Char) (writable : g.Writable)
    (before : ∀ c ∈ lead, Text.isBlank c = true) (behind : ∀ c ∈ trail, Text.isBlank c = true) :
    readGroup (lead ++ (g.write l ++ trail)) = readChain none none (g.write l) := by
  obtain ⟨d, cs, written, opening⟩ := chain_opens (l := l) writable
  have begins : ∃ c more, g.write l = c :: more ∧ Text.isBlank c = false :=
    ⟨d, cs, written, (opens_letter opening).1⟩
  have ends : ∃ front c, g.write l = front ++ [c] ∧ Text.isBlank c = false := by
    rcases List.eq_nil_or_concat (g.write l) with nothing | ⟨front, c, whole⟩
    · exact nomatch nothing.symm.trans written
    · rw [List.concat_eq_append] at whole
      exact ⟨front, c, whole, closes_chain writable c (by rw [whole, List.getLast?_concat]; rfl)⟩
  unfold readGroup
  rw [Text.trimChars_around before behind begins ends, written]
  rfl

theorem readGroups_of_split {cs first : List Char} {others : List (List Char)}
    (split : splitGroups none 0 cs = (first, others)) : readGroups cs = (first :: others).mapM readGroup := by
  rw [readGroups, split]

/-- A written selector is read group by group. -/
theorem readGroups_write (l : Layout) : ∀ (lead : List Char) {g : Chain} {gs : List Chain},
    (∀ c ∈ lead, Text.isBlank c = true) → (∀ other ∈ g :: gs, other.Writable) →
    readGroups (lead ++ writeGroups l (g :: gs)) = (g :: gs).mapM fun other => readChain none none (other.write l)
  | lead, g, [], blank, writable => by
    have here := writable g List.mem_cons_self
    have split := (goesThrough_blanks (d := 0) blank).append (goesThrough_chain l here) []
    have group := readGroup_write l lead [] here blank nofun
    simp only [splitGroups, List.append_nil] at split group
    rw [writeGroups, readGroups_of_split split, List.mapM_cons, List.mapM_cons, group]
    rfl
  | lead, g, g' :: gs, blank, writable => by
    have here := writable g List.mem_cons_self
    let more := l.behind ++ writeGroups l (g' :: gs)
    have later := readGroups_write l l.behind l.behind_blank fun other member => writable other (List.mem_cons_of_mem g member)
    have comma : splitGroups none 0 (',' :: more) = ([], (splitGroups none 0 more).1 :: (splitGroups none 0 more).2) := by
      rw [splitGroups]
      simp
    have split := (goesThrough_blanks (d := 0) blank).append
      ((goesThrough_chain l here).append (goesThrough_blanks l.ahead_blank)) (',' :: more)
    rw [comma, List.append_nil] at split
    have written : lead ++ writeGroups l (g :: g' :: gs) = lead ++ (g.write l ++ l.ahead) ++ ',' :: more := by
      simp [writeGroups, more]
    rw [written, readGroups_of_split split, List.mapM_cons, readGroup_write l lead l.ahead here blank l.ahead_blank]
    conv_rhs => rw [List.mapM_cons, ← later]
    rfl

/-- Everything in a list is read as itself exactly if each thing is. -/
theorem mapM_self_iff {α ε : Type} {f : α → Except ε α} {xs : List α} :
    xs.mapM f = .ok xs ↔ ∀ x ∈ xs, f x = .ok x := by
  induction xs with
  | nil => exact ⟨fun _ _ member => (nomatch member), fun _ => rfl⟩
  | cons x xs ih =>
    rw [List.mapM_cons, List.forall_mem_cons, ← ih]
    cases f x with
    | error e => exact ⟨nofun, fun both => nomatch both.1⟩
    | ok y =>
      cases xs.mapM f with
      | error e => exact ⟨nofun, fun both => nomatch both.2⟩
      | ok ys => simp [pure, Except.pure, bind, Except.bind]

/-- A selector of at least one group, written down in whatever layout, is read back exactly if no value in it
has a closing bracket. -/
theorem readsBack_iff (l : Layout) (groups : List Chain) (some_ : groups ≠ [])
    (writable : ∀ g ∈ groups, g.Writable) :
    parseSelector (writeSelector l groups) = .ok groups ↔ ∀ g ∈ groups, ¬ g.Bracketed := by
  obtain ⟨g, gs, rfl⟩ := List.exists_cons_of_ne_nil some_
  have read := readGroups_write l [] nofun writable
  rw [List.nil_append] at read
  rw [parseSelector_eq, writeSelector, String.toList_ofList, read, mapM_self_iff]
  exact forall₂_congr fun other member => readChain_eq_iff l (writable other member)

end

/-- One blank wherever there can be one. -/
def Layout.plain : Layout where
  gap := [' ']
  ahead := [' ']
  behind := [' ']
  gap_some := by decide
  gap_blank := List.forall_mem_singleton.mpr rfl
  ahead_blank := List.forall_mem_singleton.mpr rfl
  behind_blank := List.forall_mem_singleton.mpr rfl

/-- A form field by a name full of signs, or anything of a class. -/
def loginField : List Chain :=
  [.link (.one ⟨some "form", some "login", [], []⟩) .child
    ⟨some "input", none, [], [("name", some "a, b > [c=d"), ("required", none)]⟩, .one ⟨none, none, ["primary"], []⟩]

/-- A form field by the name of a list. -/
def rowsField : List Chain := [.one ⟨some "input", none, [], [("name", some "rows[]")]⟩]

theorem loginField_read : loginField ≠ [] ∧ (∀ g ∈ loginField, g.Writable) ∧
    (∀ g ∈ loginField, ¬ g.Bracketed) ∧ parseSelector (writeSelector .plain loginField) = .ok loginField := by
  have some_ : loginField ≠ [] := List.cons_ne_nil _ _
  have writable : ∀ g ∈ loginField, g.Writable := by decide +kernel
  have open_ : ∀ g ∈ loginField, ¬ g.Bracketed := by decide +kernel
  exact ⟨some_, writable, open_, (readsBack_iff .plain loginField some_ writable).mpr open_⟩

/-- The brackets of a value close the attribute, and what is left of it is no selector. -/
theorem rowsField_lost : ¬ ∀ (l : Layout) (groups : List Chain), groups ≠ [] → (∀ g ∈ groups, g.Writable) →
    parseSelector (writeSelector l groups) = .ok groups := by
  intro always
  have read := always .plain rowsField (List.cons_ne_nil _ _) (by decide +kernel)
  have lost : parseSelector (writeSelector .plain rowsField) = .error (.unexpected '"') := by decide +kernel
  cases lost.symm.trans read

end PageSpec.Page
