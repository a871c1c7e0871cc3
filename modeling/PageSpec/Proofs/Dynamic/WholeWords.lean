import PageSpec.Proofs.Dynamic.DateCalls
import PageSpec.Proofs.Dynamic.Offsets
import PageSpec.Text.Letters
/-!
Replaced calls and the words they stand in. A text is read from the left, each call is replaced by what it
writes, and all else is copied. A call is meant to be a word of its own, but the reading takes it wherever it
comes upon one: only whole words are replaced exactly where no call begins inside a word, but for what stands
between the brackets of whole-word calls.
-/
namespace PageSpec.Dynamic

/-! ## What is replaced -/

/-- The calls of a text that are replaced, in order, each with the whole text before and after it; `before` is
what was read already. -/
def callSites (before cs : List Char) : List FoundCall :=
  match _ : findCall cs with
  | none => []
  | some f => ⟨before ++ f.before, f.inner, f.after⟩ ::
      callSites (before ++ cs.take (cs.length - f.after.length)) f.after
termination_by cs.length
decreasing_by exact findCall_shorter ‹_›

/-- A text from a place on, with calls of it replaced by other texts. -/
def replaced (cs : List Char) (place : Nat) : List FoundCall → List String → List Char
  | f :: calls, text :: texts =>
    f.before.drop place ++ text.toList ++ replaced cs (cs.length - f.after.length) calls texts
  | _, _ => cs.drop place

theorem callSites_none {before cs : List Char} (none : findCall cs = none) : callSites before cs = [] := by
  rw [callSites]
  split
  · rfl
  · rename_i f found
    cases none.symm.trans found

theorem callSites_some {before cs : List Char} {f : FoundCall} (found : findCall cs = some f) :
    callSites before cs = ⟨before ++ f.before, f.inner, f.after⟩ ::
      callSites (before ++ cs.take (cs.length - f.after.length)) f.after := by
  rw [callSites]
  split
  · rename_i none
    cases none.symm.trans found
  · rename_i g found'
    cases found.symm.trans found'
    rfl

theorem findCall_take {cs : List Char} {f : FoundCall} (found : findCall cs = some f) :
    cs.take (cs.length - f.after.length) ++ f.after = cs := by
  obtain ⟨rest, rfl, here⟩ := findCall_stands found
  obtain ⟨opening, _, _, _, rfl⟩ := callHere_eq_some_iff.mp here
  have split : f.before ++ (opening ++ f.inner ++ ')' :: f.after) =
      (f.before ++ opening ++ f.inner ++ [')']) ++ f.after := by simp
  rw [split, List.length_append, Nat.add_sub_cancel, List.take_left]

/-- A replaced call stands in the text as it is told. -/
theorem stands_of_mem_callSites {before cs : List Char} {f : FoundCall} (member : f ∈ callSites before cs) :
    ∃ opening, IsOpening opening ∧ before ++ cs = f.before ++ opening ++ f.inner ++ ')' :: f.after := by
  cases found : findCall cs with
  | none =>
    rw [callSites_none found] at member
    cases member
  | some g =>
    have shorter := findCall_shorter found
    rw [callSites_some found] at member
    rcases List.mem_cons.mp member with rfl | later
    · obtain ⟨rest, rfl, here⟩ := findCall_stands found
      obtain ⟨opening, opens, _, _, rfl⟩ := callHere_eq_some_iff.mp here
      exact ⟨opening, opens, by simp⟩
    · obtain ⟨opening, opens, whole⟩ := stands_of_mem_callSites later
      rw [List.append_assoc, findCall_take found] at whole
      exact ⟨opening, opens, whole⟩
termination_by cs.length
decreasing_by exact shorter

/-- The calls of a text are written out in order, and all else is copied. -/
theorem resolveCalls_replaces (s : DateSettings) (before cs : List Char) :
    resolveCalls s cs = (do
      let texts ← (callSites before cs).mapM fun f => renderCall s f.inner
      return replaced (before ++ cs) before.length (callSites before cs) texts) := by
  cases found : findCall cs with
  | none =>
    rw [resolveCalls_none found, callSites_none found]
    simp [replaced]
  | some f =>
    have shorter := findCall_shorter found
    have later := resolveCalls_replaces s (before ++ cs.take (cs.length - f.after.length)) f.after
    have whole := findCall_take found
    have place : (before ++ cs.take (cs.length - f.after.length)).length =
        (before ++ cs).length - f.after.length := by
      simp
      omega
    rw [List.append_assoc, whole, place] at later
    rw [resolveCalls_some found, callSites_some found, later]
    simp [replaced, List.mapM_cons]
termination_by cs.length
decreasing_by exact shorter

/-! ## Whole words -/

/-- Letters, digits and the underscore. -/
def isWordLetter (c : Char) : Bool := Text.isLetterOrDigit c || c == '_'

/-- Whether a word can start behind a text: no letter, digit or underscore stands right before it. -/
def startsWord (before : List Char) : Bool := before.getLast?.all (!isWordLetter ·)

/-- Only whole words are replaced in a text. -/
def ReplacesWords (s : DateSettings) (cs : List Char) : Prop :=
  ∀ d out d', resolveCalls s cs d = (.ok out, d') → ∀ f ∈ callSites [] cs, startsWord f.before = true

/-- The places of a text that lie outside the brackets of its whole-word calls, each with the text before it and
the text from it on. -/
inductive Outside (cs : List Char) : List Char → List Char → Prop
  | start : Outside cs [] cs
  | next {before rest : List Char} {c : Char} (place : Outside cs before (c :: rest))
      (other : startsWord before = true → callHere (c :: rest) = none) : Outside cs (before ++ [c]) rest
  | behind {before rest inner after : List Char} (place : Outside cs before rest) (free : startsWord before = true)
      (here : callHere rest = some (inner, after)) :
      Outside cs (before ++ rest.take (rest.length - after.length)) after

theorem callSites_here {before cs inner after : List Char} (here : callHere cs = some (inner, after)) :
    callSites before cs = ⟨before, inner, after⟩ ::
      callSites (before ++ cs.take (cs.length - after.length)) after := by
  rw [callSites_some (findCall_here here), List.append_nil]

/-- A place where no call begins is passed over. -/
theorem callSites_next {before cs : List Char} {c : Char} (none : callHere (c :: cs) = none) :
    callSites before (c :: cs) = callSites (before ++ [c]) cs := by
  have step : findCall (c :: cs) = (findCall cs).map fun f => { f with before := c :: f.before } := by
    rw [findCall, none]
  cases found : findCall cs with
  | none =>
    rw [found] at step
    rw [callSites_none step, callSites_none found]
  | some f =>
    rw [found] at step
    have shorter := findCall_shorter found
    rw [callSites_some step, callSites_some found]
    have take : (c :: cs).length - f.after.length = cs.length - f.after.length + 1 := by
      rw [List.length_cons]
      omega
    rw [take, List.take_succ_cons]
    simp

/-- Where only whole words are replaced, the reading comes by all places outside of them. -/
theorem Outside.sites {cs before rest : List Char} (place : Outside cs before rest)
    (words : ∀ f ∈ callSites [] cs, startsWord f.before = true) :
    ∀ f ∈ callSites before rest, f ∈ callSites [] cs := by
  induction place with
  | start =>
    intro f member
    exact member
  | @next before rest c place other ih =>
    cases here : callHere (c :: rest) with
    | none =>
      rw [← callSites_next here]
      exact ih
    | some found =>
      obtain ⟨inner, after⟩ := found
      -- A call here would be replaced, so it would be a whole word, and those are not entered.
      rw [callSites_here here] at ih
      have free := words _ (ih _ (.head _))
      cases here.symm.trans (other free)
  | behind place free here ih =>
    intro f member
    apply ih
    rw [callSites_here here]
    exact .tail _ member

/-- What the reading comes by is outside of whole words, as long as it has come upon no other call. -/
theorem words_of_outside {cs : List Char}
    (clean : ∀ before rest, Outside cs before rest → (callHere rest).isSome = true → startsWord before = true) :
    ∀ (before rest : List Char), Outside cs before rest → ∀ f ∈ callSites before rest, startsWord f.before = true
  | before, [], _ => by
    rw [callSites_none rfl]
    exact List.forall_mem_nil _
  | before, c :: rest, place => by
    cases here : callHere (c :: rest) with
    | none =>
      rw [callSites_next here]
      exact words_of_outside clean _ rest (place.next fun _ => here)
    | some found =>
      obtain ⟨inner, after⟩ := found
      have free := clean _ _ place (by rw [here]; rfl)
      have shorter := callHere_shorter here
      rw [callSites_here here]
      exact List.forall_mem_cons.mpr ⟨free, words_of_outside clean _ after (place.behind free here)⟩
termination_by _ rest => rest.length
decreasing_by
  · exact Nat.lt_add_one rest.length
  · exact shorter

/-- A text that is not refused is copied but for its calls, which are written out in order. Only whole words are
replaced exactly where no call begins inside a word, unless in the brackets of a whole-word call. -/
theorem replacesWords_iff {s : DateSettings} {cs out : List Char} {d d' : Dice}
    (accepted : resolveCalls s cs d = (.ok out, d')) :
    ((∃ texts, ((callSites [] cs).mapM fun f => renderCall s f.inner) d = (.ok texts, d') ∧
        out = replaced cs 0 (callSites [] cs) texts) ∧
      ∀ f ∈ callSites [] cs, ∃ opening, IsOpening opening ∧
        cs = f.before ++ opening ++ f.inner ++ ')' :: f.after) ∧
    (ReplacesWords s cs ↔
      ∀ before rest, Outside cs before rest → (callHere rest).isSome = true → startsWord before = true) := by
  refine ⟨⟨?_, fun f member => stands_of_mem_callSites member⟩, ?_, ?_⟩
  · rw [resolveCalls_replaces s [] cs] at accepted
    obtain ⟨texts, d₁, written, done⟩ := Act.bind_eq_ok accepted
    cases done
    exact ⟨texts, written, rfl⟩
  · intro words before rest place here
    obtain ⟨⟨inner, after⟩, here⟩ := Option.isSome_iff_exists.mp here
    have all := words d out d' accepted
    have member := place.sites all ⟨before, inner, after⟩
    rw [callSites_here here] at member
    exact all _ (member (.head _))
  · intro clean _ _ _ _
    exact words_of_outside clean [] cs .start

/-- A call within a word is replaced like any other. -/
theorem update_replaced : ¬ ReplacesWords octoberDates "date(today) update(today)".toList := by
  intro words
  have told : (resolveCalls octoberDates "date(today) update(today)".toList default).1 =
      .ok "2025-10-05 up2025-10-05".toList := eq_ok_of_toOption (by decide +kernel)
  have all := words default _ _ (Prod.ext told rfl)
  have inWord : ¬ ∀ f ∈ callSites [] "date(today) update(today)".toList, startsWord f.before = true := by
    decide +kernel
  exact inWord all

/-- A format with such a call in it belongs to the call that it stands in. -/
theorem update_in_format :
    (resolveCalls octoberDates "date(today, 'update(dd') or candidate".toList default).1 =
      .ok "up5amte(05 or candidate".toList ∧
    ∀ before rest, Outside "date(today, 'update(dd') or candidate".toList before rest →
      (callHere rest).isSome = true → startsWord before = true := by
  have told : (resolveCalls octoberDates "date(today, 'update(dd') or candidate".toList default).1 =
      .ok "up5amte(05 or candidate".toList := eq_ok_of_toOption (by decide +kernel)
  have words : ∀ f ∈ callSites [] "date(today, 'update(dd') or candidate".toList, startsWord f.before = true := by
    decide +kernel
  refine ⟨told, ?_⟩
  exact (replacesWords_iff (Prod.ext told rfl)).2.mp fun _ _ _ _ => words

end PageSpec.Dynamic
