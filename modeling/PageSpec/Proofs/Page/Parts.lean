import PageSpec.Proofs.Page.Outlines
/-!
Selectors in parts. A group is read into one list of compounds and another of the combinators between them, and it is
matched by places in the two. Reading needs no guard against standing still, for every compound takes a character;
a group that is read has one compound more than combinators; and so a match never asks for a place beyond the lists.
-/
namespace PageSpec.Page

/-! ## Reading into lists -/

/-- A group as its compounds and the combinators between them. -/
structure Parts where
  compounds : List Compound
  combinators : List Combinator
  deriving DecidableEq, Repr

/-- The parts with one more compound. The first one has no combinator before it. -/
def Parts.push (p : Parts) (pending : Option Combinator) (c : Compound) : Parts where
  compounds := p.compounds ++ [c]
  combinators := if p.compounds.isEmpty then p.combinators else p.combinators ++ [pending.getD .descendant]

theorem breaks_eq_false {c : Char} (blank : ¬ Text.isBlank c = true) (child : ¬ c = '>')
    (sign : ¬ (c = '+' ∨ c = '~')) : breaks c = false := by
  simp_all [breaks]

/-- The rest of a group: `p` holds the parts read, `pending` the combinator after them. -/
def readParts (p : Parts) (pending : Option Combinator) (cs : List Char) : Except SelectorError Parts :=
  match cs with
  | [] => if p.compounds.isEmpty || pending == some .child then .error .incomplete else .ok p
  | c :: r =>
    if Text.isBlank c then
      readParts p (if !p.compounds.isEmpty && pending.isNone then some .descendant else pending) r
    else if c = '>' then
      if p.compounds.isEmpty then .error .leadingCombinator else readParts p (some .child) r
    else if c = '+' ∨ c = '~' then .error (.unsupported c)
    else
      match _took : readCompound (c :: r) with
      | .error e => .error e
      | .ok (k, rest) => readParts (p.push pending k) none rest
termination_by cs.length
decreasing_by
  · exact Nat.lt_succ_self _
  · exact Nat.lt_succ_self _
  · rename_i blank child sign
    exact readCompound_shorter (breaks_eq_false blank child sign) _took

/-- All groups of a selector text. -/
def parseParts (selector : String) : Except SelectorError (List Parts) :=
  (groupsOf selector.toList).mapM fun group =>
    let t := Text.trimChars group
    if t.isEmpty then .error .emptyGroup else readParts ⟨[], []⟩ none t

/-- A chain in parts. -/
def Chain.parts (g : Chain) : Parts := ⟨g.compounds, g.combinators⟩

/-- The parts read so far. -/
def partsOf : Option Chain → Parts
  | none => ⟨[], []⟩
  | some g => g.parts

theorem Chain.compounds_ne_nil (g : Chain) : g.compounds ≠ [] := by
  intro none
  have count := g.compounds_length
  rw [none] at count
  cases count

theorem partsOf_isEmpty (sofar : Option Chain) : (partsOf sofar).compounds.isEmpty = sofar.isNone := by
  cases sofar with
  | none => rfl
  | some g => simpa [partsOf, Chain.parts] using g.compounds_ne_nil

theorem partsOf_push (sofar : Option Chain) (pending : Option Combinator) (k : Compound) :
    (partsOf sofar).push pending k = (Chain.extend sofar pending k).parts := by
  unfold Parts.push
  rw [partsOf_isEmpty]
  cases sofar <;> rfl

theorem readParts_compound {p : Parts} {pending : Option Combinator} {c : Char} {r : List Char}
    (blank : ¬ Text.isBlank c = true) (child : ¬ c = '>') (sign : ¬ (c = '+' ∨ c = '~')) :
    readParts p pending (c :: r) = match readCompound (c :: r) with
      | .error e => .error e
      | .ok (k, rest) => readParts (p.push pending k) none rest := by
  rw [readParts, if_neg blank, if_neg child, if_neg sign]
  split <;> rename_i took <;> rw [took]

/-- Reading into lists comes to the lists of the chain that is read. -/
theorem readParts_eq (sofar : Option Chain) (pending : Option Combinator) (cs : List Char) :
    readParts (partsOf sofar) pending cs = (readChain sofar pending cs).map Chain.parts := by
  fun_induction readChain sofar pending cs with
  | case1 left =>
    rw [readParts, partsOf_isEmpty]
    rfl
  | case2 pending left more =>
    rw [readParts, partsOf_isEmpty, if_neg (by simpa using more)]
    rfl
  | case3 =>
    rw [readParts, partsOf_isEmpty]
    rfl
  | case4 sofar pending c r blank ih =>
    simp only [dite_eq_ite] at ih
    rw [readParts, if_pos blank, partsOf_isEmpty, Option.not_isNone, ih]
  | case5 sofar pending r none blank =>
    rw [readParts, if_neg blank, if_pos rfl, partsOf_isEmpty, if_pos none]
    rfl
  | case6 sofar pending r some_ blank ih =>
    rw [readParts, if_neg blank, if_pos rfl, partsOf_isEmpty, if_neg some_, ih]
  | case7 sofar pending c r blank child sign =>
    rw [readParts, if_neg blank, if_neg child, if_pos sign]
    rfl
  | case8 sofar pending c r blank child sign e refused =>
    rw [readParts_compound blank child sign, refused]
    rfl
  | case9 sofar pending c r blank child sign k rest took shorter ih =>
    rw [readParts_compound blank child sign, took]
    dsimp only
    rw [partsOf_push]
    exact ih
  | case10 sofar pending c r blank child sign k rest took stuck =>
    exact absurd (readCompound_shorter (breaks_eq_false blank child sign) took) stuck

theorem mapM_map {α β γ ε : Type} {f : α → Except ε β} {g : α → Except ε γ} {h : β → γ}
    (each : ∀ x, g x = (f x).map h) : ∀ xs : List α, xs.mapM g = (xs.mapM f).map (List.map h)
  | [] => rfl
  | x :: xs => by
    rw [List.mapM_cons, List.mapM_cons, each, mapM_map each xs]
    cases f x with
    | error e => rfl
    | ok y => cases xs.mapM f <;> rfl

theorem parseParts_eq (selector : String) : parseParts selector = (parseSelector selector).map (List.map Chain.parts) := by
  refine mapM_map (f := readGroup) (fun group => ?_) (groupsOf selector.toList)
  unfold readGroup
  dsimp only
  split
  · rfl
  · exact readParts_eq none none _

/-! ## Names -/

/-- The ids and classes that a compound asks for are names. -/
def Compound.Named (c : Compound) : Prop := (∀ id ∈ c.id, IsName id) ∧ ∀ name ∈ c.classes, IsName name

theorem isName_run {r : List Char} (some_ : ¬ (r.takeWhile isNameChar).isEmpty = true) :
    IsName (.ofList (r.takeWhile isNameChar)) := by
  constructor
  · intro empty
    have none := congrArg String.toList empty
    rw [String.toList_ofList] at none
    exact some_ (List.isEmpty_iff.mpr none)
  · intro c member
    rw [String.toList_ofList] at member
    exact List.mem_takeWhile_imp member

theorem readQualifiers_named {k read : Compound} {cs rest : List Char} (named : k.Named)
    (done : readQualifiers k cs = .ok (read, rest)) : read.Named := by
  fun_induction readQualifiers k cs with
  | case1 => cases done; exact named
  | case3 k r name some_ ih =>
    refine ih ⟨?_, named.2⟩ done
    rintro id ⟨⟩
    exact isName_run some_
  | case5 k r name some_ ih =>
    exact ih ⟨named.1, List.forall_mem_append.mpr ⟨named.2, List.forall_mem_singleton.mpr (isName_run some_)⟩⟩ done
  | case7 k r body _ _ _ ih =>
    cases asked : readAttribute body with
    | error e => rw [asked] at done; cases done
    | ok a =>
      rw [asked] at done
      exact ih a named done
  | case9 => cases done; exact named
  | case2 | case4 | case6 | case8 | case10 => cases done

theorem named_any : Compound.any.Named := ⟨nofun, nofun⟩

theorem readCompound_named {read : Compound} {cs rest : List Char} (done : readCompound cs = .ok (read, rest)) :
    read.Named := by
  unfold readCompound at done
  split at done
  · exact readQualifiers_named named_any done
  · dsimp only at done
    split at done
    · exact readQualifiers_named named_any done
    · refine readQualifiers_named ?_ done
      exact named_any

theorem readChain_named {sofar : Option Chain} {pending : Option Combinator} {cs : List Char} {g : Chain}
    (named : ∀ left ∈ sofar, ∀ c ∈ left.compounds, c.Named) (done : readChain sofar pending cs = .ok g) :
    ∀ c ∈ g.compounds, c.Named := by
  fun_induction readChain sofar pending cs with
  | case2 => cases done; exact named _ rfl
  | case4 _ _ _ _ _ ih => exact ih named done
  | case6 _ _ _ _ _ ih => exact ih named done
  | case9 sofar pending _ _ _ _ _ k _ took _ ih =>
    refine ih ?_ done
    rintro left ⟨⟩
    have last : k.Named := readCompound_named took
    cases sofar with
    | none => exact List.forall_mem_singleton.mpr last
    | some left => exact List.forall_mem_append.mpr ⟨named left rfl, List.forall_mem_singleton.mpr last⟩
  | case1 | case3 | case5 | case7 | case8 | case10 => cases done

/-- What matching relies on: at least one compound, one combinator less, and names for the ids and classes. -/
structure Parts.WellFormed (p : Parts) : Prop where
  some_ : p.compounds ≠ []
  count : p.compounds.length = p.combinators.length + 1
  named : ∀ c ∈ p.compounds, c.Named

/-! ## Matching by places -/

/-- Whether a node matches the parts up to a place; `none` if a place is asked for that is not there. -/
def Parts.matchesUpTo? (f : Forest) (p : Parts) : Nat → Nat → Option Bool
  | 0, i => do
    let c ← p.compounds[0]?
    return (f.node? i).any (c.admits ·.traits)
  | part + 1, i => do
    let c ← p.compounds[part + 1]?
    if (f.node? i).any (c.admits ·.traits) then
      let k ← p.combinators[part]?
      match k with
      | .child =>
        match f.parent? i with
        | some above => p.matchesUpTo? f part above
        | none => return false
      | .descendant => (f.ancestors i).anyM (p.matchesUpTo? f part)
    else return false

/-- Whether a node matches all of the parts. -/
def Parts.matches? (f : Forest) (p : Parts) (i : Nat) : Option Bool := p.matchesUpTo? f (p.compounds.length - 1) i

theorem anyM_some {α : Type} {test : α → Option Bool} {holds : α → Bool} (told : ∀ x, test x = some (holds x)) :
    ∀ xs : List α, xs.anyM test = some (xs.any holds)
  | [] => rfl
  | x :: xs => by
    rw [List.anyM, told, List.any_cons]
    cases holds x
    · exact anyM_some told xs
    · rfl

/-- The parts of a chain are matched as the chain is, also where more parts follow them. -/
theorem matchesUpTo?_chain (f : Forest) : ∀ (g : Chain) (more : List Compound) (more' : List Combinator) (i : Nat),
    Parts.matchesUpTo? f ⟨g.compounds ++ more, g.combinators ++ more'⟩ g.combinators.length i = some (g.admits f i)
  | .one c, more, more', i => rfl
  | .link left k c, more, more', i => by
    have before := matchesUpTo?_chain f left (c :: more) (k :: more')
    have here : (left.compounds ++ c :: more)[left.combinators.length + 1]? = some c := by
      rw [← left.compounds_length, List.getElem?_append_right (Nat.le_refl _), Nat.sub_self]
      rfl
    have joint : (left.combinators ++ k :: more')[left.combinators.length]? = some k := by
      rw [List.getElem?_append_right (Nat.le_refl _), Nat.sub_self]
      rfl
    rw [Chain.compounds, Chain.combinators, List.append_assoc, List.append_assoc, List.length_append,
      List.singleton_append, List.singleton_append, List.length_singleton, Parts.matchesUpTo?, Chain.admits_link]
    simp only [here, joint, Option.bind_eq_bind, Option.bind_some]
    cases (f.node? i).any (c.admits ·.traits) with
    | false => rfl
    | true =>
      rw [if_pos rfl, Bool.true_and]
      cases k with
      | child =>
        cases f.parent? i with
        | none => rfl
        | some above => exact before above
      | descendant => exact anyM_some before (f.ancestors i)

theorem Chain.matches?_parts (f : Forest) (g : Chain) (i : Nat) : g.parts.matches? f i = some (g.admits f i) := by
  have whole := matchesUpTo?_chain f g [] [] i
  rw [List.append_nil, List.append_nil] at whole
  have last : g.parts.compounds.length - 1 = g.combinators.length := by
    rw [Chain.parts, g.compounds_length]
    rfl
  rw [Parts.matches?, last]
  exact whole

/-! ## Every text -/

theorem Chain.parts_wellFormed {group : List Char} {g : Chain} (done : readGroup group = .ok g) :
    g.parts.WellFormed where
  some_ := g.compounds_ne_nil
  count := g.compounds_length
  named := by
    unfold readGroup at done
    dsimp only at done
    split at done
    · cases done
    · refine readChain_named ?_ done
      exact fun _ asked => nomatch asked

/-- Every chain of a selector was read of a group. -/
theorem exists_group {gs : List (List Char)} {chains : List Chain}
    (read : List.Forall₂ (fun group chain => readGroup group = .ok chain) gs chains) {g : Chain} (member : g ∈ chains) :
    ∃ group, readGroup group = .ok g := by
  induction read with
  | nil => cases member
  | cons first _ ih =>
    rcases List.mem_cons.mp member with rfl | later
    · exact ⟨_, first⟩
    · exact ih later

/-- Selectors that are read are well formed. Every compound takes a character of its text, and reading into lists,
which ends by that alone, comes to the chains of the selector. There is at least one group, every group is well formed
in its parts, and a match by places never asks for a place that is not there. Faulty texts are refused. -/
theorem parseSelector_wellFormed (selector : String) :
    (∀ c r k rest, breaks c = false → readCompound (c :: r) = .ok (k, rest) → rest.length < (c :: r).length) ∧
    parseParts selector = (parseSelector selector).map (List.map Chain.parts) ∧
    (∀ groups, parseSelector selector = .ok groups → groups ≠ [] ∧ ∀ g ∈ groups, g.parts.WellFormed ∧
      ∀ f i, g.parts.matches? f i = some (g.admits f i)) ∧
    (Faulty selector.toList → ∃ e, parseSelector selector = .error e) := by
  refine ⟨fun _ _ _ _ => readCompound_shorter, parseParts_eq selector, ?_, readGroups_faulty⟩
  intro groups done
  have each := mapM_eq_ok_iff.mp (show (groupsOf selector.toList).mapM readGroup = _ from done)
  obtain ⟨first, others, _, _, rfl⟩ := List.forall₂_cons_left_iff.mp each
  refine ⟨List.cons_ne_nil _ _, fun g member => ?_⟩
  obtain ⟨group, read⟩ := exists_group each member
  exact ⟨Chain.parts_wellFormed read, fun f i => g.matches?_parts f i⟩

/-- A selector with signs and a comma in a value, and a text that is like it up to a sign at its end. -/
def signsInValue : String := "form#login > input[title=\"a:b, c+d >\"], .primary"

def signAtEnd : String := signsInValue ++ " >"

theorem signsInValue_wellFormed : (∃ groups, parseSelector signsInValue = .ok groups ∧
      parseParts signsInValue = .ok (groups.map Chain.parts) ∧ groups.length = 2 ∧ ∀ g ∈ groups, g.parts.WellFormed) ∧
    ∃ e, parseSelector signAtEnd = .error e := by
  constructor
  · obtain ⟨_, parts, wellFormed, _⟩ := parseSelector_wellFormed signsInValue
    let field : Chain := .link (.one ⟨some "form", some "login", [], []⟩) .child
      ⟨some "input", none, [], [("title", some "a:b, c+d >")]⟩
    have read : parseSelector signsInValue = .ok [field, .one ⟨none, none, ["primary"], []⟩] := by decide +kernel
    refine ⟨_, read, by rw [parts, read]; rfl, rfl, fun g member => ((wellFormed _ read).2 g member).1⟩
  · have drawn : outline? signAtEnd.toList = some "form#login > input[], .primary >".toList := by decide
    have last : Piece signAtEnd.toList " .primary >".toList := .outer drawn (by decide)
    exact (parseSelector_wellFormed signAtEnd).2.2.2 (.misplaced last (.inr (.inr (by decide))))

end PageSpec.Page
