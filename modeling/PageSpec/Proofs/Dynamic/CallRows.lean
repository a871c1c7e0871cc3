import PageSpec.Proofs.Dynamic.DateCalls
/-!
Rows of date calls. A text is a row of calls with text before each of them and behind the last, where each call is
the first one in what the earlier ones left. The calls are written out in order and all else is copied, an opening
that no call follows included.
-/
namespace PageSpec.Dynamic

/-! ## Where calls begin -/

/-- A text begins with a call: an opening, something without a closing bracket, and that bracket. -/
def BeginsCall (cs : List Char) : Prop :=
  ∃ opening inner after, IsOpening opening ∧ inner ≠ [] ∧ ')' ∉ inner ∧ cs = opening ++ inner ++ ')' :: after

/-- No call begins in a text that stands before another. -/
def FreeBefore (front rest : List Char) : Prop :=
  ∀ passed cs, front = passed ++ cs → cs ≠ [] → ¬ BeginsCall (cs ++ rest)

section
variable {c : Char} {cs front back opening inner rest after : List Char}

theorem callHere_eq_none_iff : callHere cs = none ↔ ¬ BeginsCall cs := by
  rw [← Option.not_isSome_iff_eq_none, Option.isSome_iff_exists, not_iff_not]
  constructor
  · rintro ⟨⟨inner, after⟩, here⟩
    obtain ⟨opening, call⟩ := callHere_eq_some_iff.mp here
    exact ⟨opening, inner, after, call⟩
  · rintro ⟨opening, inner, after, call⟩
    exact ⟨(inner, after), callHere_eq_some_iff.mpr ⟨opening, call⟩⟩

theorem freeBefore_nil : FreeBefore [] rest := fun _ _ split some_ =>
  absurd (List.append_eq_nil_iff.mp split.symm).2 some_

theorem freeBefore_cons : FreeBefore (c :: front) rest ↔ ¬ BeginsCall (c :: (front ++ rest)) ∧ FreeBefore front rest := by
  constructor
  · intro free
    exact ⟨free [] (c :: front) rfl (List.cons_ne_nil _ _),
      fun passed cs split => free (c :: passed) cs (congrArg (c :: ·) split)⟩
  · rintro ⟨here, later⟩ passed cs split some_
    rcases List.cons_eq_append_iff.mp split with ⟨rfl, rfl⟩ | ⟨passed', rfl, split'⟩
    · exact here
    · exact later passed' cs split' some_

instance : DecidablePred BeginsCall := fun cs =>
  decidable_of_iff (callHere cs ≠ none) (by rw [Ne, callHere_eq_none_iff, not_not])

instance decidableFreeBefore : ∀ front rest : List Char, Decidable (FreeBefore front rest)
  | [], _ => .isTrue freeBefore_nil
  | _ :: front, rest =>
    have := decidableFreeBefore front rest
    decidable_of_iff _ freeBefore_cons.symm

theorem freeBefore_append : FreeBefore (front ++ back) rest ↔ FreeBefore front (back ++ rest) ∧ FreeBefore back rest := by
  induction front with
  | nil => exact (and_iff_right freeBefore_nil).symm
  | cons c front ih => rw [List.cons_append, freeBefore_cons, freeBefore_cons, ih, List.append_assoc, and_assoc]

/-- A call begins with a letter of its word. -/
theorem BeginsCall.head (begins : BeginsCall (c :: cs)) : c.toLower = 'd' := by
  obtain ⟨_, inner, after, ⟨word, blanks, lower, _, rfl⟩, _, _, whole⟩ := begins
  cases word with
  | nil => cases lower
  | cons d word =>
    obtain ⟨rfl, _⟩ := List.cons.inj whole
    exact (List.cons.inj lower).1

theorem freeBefore_of_head (other : ∀ d ∈ front, d.toLower ≠ 'd') : FreeBefore front rest := by
  intro passed cs split some_ begins
  obtain ⟨d, more, rfl⟩ := List.exists_cons_of_ne_nil some_
  exact other d (by rw [split]; simp) begins.head

/-! ## The first call -/

/-- The call with more text before it. -/
def FoundCall.behind (front : List Char) (f : FoundCall) : FoundCall := { f with before := front ++ f.before }

theorem findCall_free : ∀ {front : List Char}, FreeBefore front rest →
    findCall (front ++ rest) = (findCall rest).map (.behind front)
  | [], _ => by
    rw [List.nil_append]
    cases findCall rest <;> rfl
  | c :: front, free => by
    obtain ⟨here, later⟩ := freeBefore_cons.mp free
    rw [List.cons_append, findCall, callHere_eq_none_iff.mpr here, findCall_free later]
    cases findCall rest <;> rfl

theorem findCall_eq_none (free : FreeBefore cs []) : findCall cs = none := by
  have nothing := findCall_free free
  rwa [List.append_nil] at nothing

theorem callHere_call (opens : IsOpening opening) (some_ : inner ≠ []) (closed : ')' ∉ inner) :
    callHere (opening ++ inner ++ ')' :: after) = some (inner, after) :=
  callHere_eq_some_iff.mpr ⟨opening, opens, some_, closed, rfl⟩

/-- A text has a first call, or no call begins in it. -/
theorem findCall_cases : ∀ cs : List Char, FreeBefore cs [] ∨ ∃ before opening inner after, IsOpening opening ∧
    inner ≠ [] ∧ ')' ∉ inner ∧ cs = before ++ (opening ++ inner ++ ')' :: after) ∧
      FreeBefore before (opening ++ inner ++ ')' :: after)
  | [] => .inl freeBefore_nil
  | c :: cs => by
    by_cases here : BeginsCall (c :: cs)
    · obtain ⟨opening, inner, after, opens, some_, closed, whole⟩ := here
      exact .inr ⟨[], opening, inner, after, opens, some_, closed, whole, freeBefore_nil⟩
    · rcases findCall_cases cs with free | ⟨before, opening, inner, after, opens, some_, closed, rfl, free⟩
      · exact .inl (freeBefore_cons.mpr ⟨by rwa [List.append_nil], free⟩)
      · exact .inr ⟨c :: before, opening, inner, after, opens, some_, closed, rfl, freeBefore_cons.mpr ⟨here, free⟩⟩

end

/-! ## Rows of calls -/

/-- A call of a text, with the text before it. -/
structure CallSpan where
  before : List Char
  opening : List Char
  inner : List Char
  opens : IsOpening opening
  some_ : inner ≠ []
  closed : ')' ∉ inner

def CallSpan.call (x : CallSpan) : List Char := x.opening ++ x.inner ++ [')']

/-- A text as a row of calls and what is left behind the last of them, further calls maybe. Each call is the first
one of what is left behind the one before it. -/
inductive CallRow : List Char → List CallSpan → List Char → Prop
  | rest {tail : List Char} : CallRow tail [] tail
  | call {x : CallSpan} {xs : List CallSpan} {cs tail : List Char} (first : FreeBefore x.before (x.call ++ cs))
      (later : CallRow cs xs tail) : CallRow (x.before ++ (x.call ++ cs)) (x :: xs) tail

/-- Texts in the place of calls, with everything else copied. -/
def writtenOut : List CallSpan → List String → List Char → List Char
  | x :: xs, text :: texts, tail => x.before ++ (text.toList ++ writtenOut xs texts tail)
  | _, _, tail => tail

/-- Every text is a row of all its calls. -/
theorem exists_callRow (cs : List Char) : ∃ xs tail, CallRow cs xs tail ∧ FreeBefore tail [] := by
  rcases findCall_cases cs with free | ⟨before, opening, inner, after, opens, some_, closed, whole, free⟩
  · exact ⟨[], cs, .rest, free⟩
  · have shorter : after.length < cs.length := by
      rw [whole]
      simp
      omega
    obtain ⟨xs, tail, later, none⟩ := exists_callRow after
    let x : CallSpan := ⟨before, opening, inner, opens, some_, closed⟩
    have call : opening ++ inner ++ ')' :: after = x.call ++ after := by simp [x, CallSpan.call]
    rw [call] at whole free
    rw [whole]
    exact ⟨x :: xs, tail, .call (x := x) free later, none⟩
termination_by cs.length
decreasing_by exact shorter

variable {s : DateSettings}

theorem resolveCalls_free {front rest : List Char} (free : FreeBefore front rest) :
    resolveCalls s (front ++ rest) = (front ++ ·) <$> resolveCalls s rest := by
  have found := findCall_free free
  cases first : findCall rest with
  | none =>
    rw [first] at found
    rw [resolveCalls_none first, resolveCalls_none found, map_pure]
  | some f =>
    rw [first] at found
    rw [resolveCalls_some first, resolveCalls_some found]
    simp [FoundCall.behind]

theorem resolveCalls_call (x : CallSpan) (cs : List Char) : resolveCalls s (x.call ++ cs) = (do
    let text ← renderCall s x.inner
    let rest ← resolveCalls s cs
    return text.toList ++ rest) := by
  have here : callHere (x.call ++ cs) = some (x.inner, cs) := by
    have call : callHere (x.opening ++ x.inner ++ ')' :: cs) = _ := callHere_call x.opens x.some_ x.closed
    rwa [CallSpan.call, List.append_assoc, List.singleton_append]
  rw [resolveCalls_some (findCall_here here)]
  rfl

/-- The calls of a row are written out in order, and what is left is replaced after them. -/
theorem resolveCalls_row {cs tail : List Char} {xs : List CallSpan} (row : CallRow cs xs tail) :
    resolveCalls s cs = (do
      let texts ← xs.mapM fun x => renderCall s x.inner
      let out ← resolveCalls s tail
      return writtenOut xs texts out) := by
  induction row with
  | @rest tail =>
    rw [List.mapM_nil, pure_bind]
    exact (bind_pure _).symm
  | @call x xs cs tail first later ih =>
    rw [resolveCalls_free first, resolveCalls_call, ih]
    simp [List.mapM_cons, writtenOut]

/-! ## Openings without a call -/

theorem callHere_opening {opening : List Char} (opens : IsOpening opening) (rest : List Char) :
    callHere (opening ++ rest) = match rest.takeWhile (· ≠ ')'), rest.dropWhile (· ≠ ')') with
      | c :: inner, _ :: after => some (c :: inner, after)
      | _, _ => none := by
  obtain ⟨word, blanks, lower, blank, rfl⟩ := opens
  have size : word.length = 4 := by simpa using congrArg List.length lower
  have front : (word ++ blanks ++ ['('] ++ rest).take 4 = word := by simp [← size]
  have back : (word ++ blanks ++ ['('] ++ rest).drop 4 = blanks ++ '(' :: rest := by simp [← size]
  have bracket : Text.trimStart (blanks ++ '(' :: rest) = '(' :: rest := by
    unfold Text.trimStart
    rw [List.dropWhile_append_of_pos blank]
    exact Text.trimStart_cons (by decide)
  unfold callHere
  rw [front, if_pos lower, back, bracket]
  rfl

theorem callHere_closed {opening inner after : List Char} (opens : IsOpening opening) (closed : ')' ∉ inner) :
    callHere (opening ++ (inner ++ ')' :: after)) = if inner = [] then none else some (inner, after) := by
  obtain ⟨front, back⟩ := Text.before_stop closed after
  rw [callHere_opening opens, front, back]
  cases inner <;> rfl

theorem callHere_unclosed {opening rest : List Char} (opens : IsOpening opening) (open_ : ')' ∉ rest) :
    callHere (opening ++ rest) = none := by
  rw [callHere_opening opens, Text.without_stop open_]
  split
  · rename_i nothing
    cases nothing
  · rfl

/-- Only the capitals of the basic alphabet have other small letters. -/
theorem toLower_other {c : Char} (other : ¬ (65 ≤ c.toNat ∧ c.toNat ≤ 90)) : c.toLower = c := by
  unfold Char.toLower
  refine dif_neg ?_
  rw [ge_iff_le, UInt32.le_iff_toNat_le, UInt32.le_iff_toNat_le]
  exact other

theorem toLower_blank {c : Char} (blank : Text.isBlank c = true) : c.toLower = c := by
  apply toLower_other
  intro capital
  simp [Text.isBlank] at blank
  omega

/-- Behind the first letter of the word there is no other one that could begin it. -/
theorem freeBefore_word {word rest : List Char} (lower : word.map Char.toLower = ['d', 'a', 't', 'e'])
    (none : ¬ BeginsCall (word ++ rest)) : FreeBefore word rest := by
  obtain ⟨d, letters, rfl, _, others⟩ := List.map_eq_cons_iff.mp lower
  refine freeBefore_cons.mpr ⟨none, freeBefore_of_head ?_⟩
  intro c letter first
  have listed := List.mem_map_of_mem (f := Char.toLower) letter
  rw [others, first] at listed
  revert listed
  decide

/-- What follows an opening makes no call of it: the closing bracket right away, or none at all. -/
def NoCall (closing rest : List Char) : Prop := closing = [')'] ∨ closing = [] ∧ ')' ∉ rest

/-- No call begins anywhere in an opening that nothing follows. -/
theorem freeBefore_opening {opening closing rest : List Char} (opens : IsOpening opening)
    (noCall : NoCall closing rest) : FreeBefore (opening ++ closing) rest := by
  have none : ¬ BeginsCall (opening ++ (closing ++ rest)) := by
    rw [← callHere_eq_none_iff]
    rcases noCall with rfl | ⟨rfl, open_⟩
    · exact callHere_closed opens List.not_mem_nil
    · exact callHere_unclosed opens open_
  have bracket : FreeBefore closing rest := by
    apply freeBefore_of_head
    rcases noCall with rfl | ⟨rfl, _⟩
    · exact List.forall_mem_singleton.mpr (by decide)
    · exact List.forall_mem_nil _
  refine freeBefore_append.mpr ⟨?_, bracket⟩
  obtain ⟨word, blanks, lower, blank, rfl⟩ := opens
  rw [List.append_assoc, List.append_assoc] at none
  rw [List.append_assoc, freeBefore_append]
  refine ⟨freeBefore_word lower (by rwa [List.append_assoc]), ?_⟩
  apply freeBefore_of_head
  intro c member
  rcases List.mem_append.mp member with inside | bracket
  · rw [toLower_blank (blank c inside)]
    rintro rfl
    cases blank 'd' inside
  · rw [List.mem_singleton.mp bracket]
    decide

end PageSpec.Dynamic
