import PageSpec.Dynamic.DateCall
import PageSpec.Proofs.Effect
import PageSpec.Proofs.Text.Cutting
/-!
Date calls taken apart. A call ends at the first closing bracket behind its opening one, its base ends at the
first comma, and what it writes is determined by its base and its format. A text that is nothing but a call
is replaced by what the call writes.
-/
namespace PageSpec

namespace Dynamic

/-! ## Rendering -/

/-- The base of a call: the text up to the first comma. -/
def baseText (inner : List Char) : List Char :=
  match Text.splitOnce ',' inner with
  | some (base, _) => Text.trimChars base
  | none => Text.trimChars inner

/-- The format of a call with a base: the text behind the first comma, if there is one. -/
def formatText (inner : List Char) : String :=
  match Text.splitOnce ',' inner with
  | some (_, format) => .ofList (unquoteFormat (Text.trimChars format))
  | none => defaultDateFormat

theorem mem_of_mem_baseText {c : Char} {inner : List Char} (member : c ∈ baseText inner) : c ∈ inner := by
  unfold baseText at member
  split at member
  · rename_i base format split
    rw [Text.eq_of_splitOnce split]
    exact List.mem_append_left _ (Text.mem_of_mem_trimChars member)
  · exact Text.mem_of_mem_trimChars member

theorem mem_of_mem_unquoteFormat {c : Char} {cs : List Char} (member : c ∈ unquoteFormat cs) : c ∈ cs := by
  unfold unquoteFormat at member
  split at member
  · split at member
    · exact .tail _ ((List.dropLast_sublist _).subset member)
    · exact member
  · exact member

theorem mem_of_mem_formatText {c : Char} {inner : List Char} (member : c ∈ (formatText inner).toList) :
    c ∈ defaultDateFormat.toList ∨ c ∈ inner := by
  unfold formatText at member
  split at member
  · rename_i base format split
    rw [String.toList_ofList] at member
    have inside := Text.mem_of_mem_trimChars (mem_of_mem_unquoteFormat member)
    rw [Text.eq_of_splitOnce split]
    exact .inr (List.mem_append_right _ (.tail _ inside))
  · exact .inl member

/-- Without a base a random moment is drawn, and the whole text is the format. -/
theorem renderCall_eq (s : DateSettings) (inner : List Char) (d : Dice) :
    renderCall s inner d = match readBase s (baseText inner) with
      | .error e => (.error e, d)
      | .ok (some m) => (formatDate s m (formatText inner), d)
      | .ok none => (formatDate s (randomMoment s d).1 (.ofList (unquoteFormat (Text.trimChars inner))),
          (randomMoment s d).2) := by
  unfold renderCall baseText formatText
  cases Text.splitOnce ',' inner with
  | none =>
    dsimp only
    rw [Act.bind_apply]
    rcases readBase s (Text.trimChars inner) with e | m | m
    · rfl
    · rfl
    · rfl
  | some split =>
    dsimp only
    rw [Act.bind_apply]
    rcases readBase s (Text.trimChars split.1) with e | m | m
    · rfl
    · rfl
    · rfl

/-! ## Finding -/

/-- How a call begins: the word in any letter case, blanks and a bracket. -/
def IsOpening (cs : List Char) : Prop :=
  ∃ word blanks, word.map Char.toLower = ['d', 'a', 't', 'e'] ∧ (∀ c ∈ blanks, Text.isBlank c = true) ∧
    cs = word ++ blanks ++ ['(']

/-- A call is its opening, something without a closing bracket, and the bracket. -/
theorem callHere_splits {cs inner after : List Char} (here : callHere cs = some (inner, after)) :
    ∃ opening, IsOpening opening ∧ inner ≠ [] ∧ ')' ∉ inner ∧ cs = opening ++ inner ++ ')' :: after := by
  unfold callHere at here
  split at here
  · rename_i word
    split at here
    · rename_i rest bracket
      have blanks := List.takeWhile_append_dropWhile (p := Text.isBlank) (l := cs.drop 4)
      have whole := List.take_append_drop 4 cs
      unfold Text.trimStart at bracket
      rw [bracket] at blanks
      rw [← blanks] at whole
      have opens : IsOpening (cs.take 4 ++ (cs.drop 4).takeWhile Text.isBlank ++ ['(']) :=
        ⟨_, _, word, fun b member => List.all_eq_true.mp List.all_takeWhile b member, rfl⟩
      by_cases closed : ')' ∈ rest
      · obtain ⟨front, back, rfl, open_⟩ := List.eq_append_cons_of_mem closed
        obtain ⟨inside, behind⟩ := Text.before_stop open_ back
        rw [inside, behind] at here
        cases front with
        | nil => cases here
        | cons c front =>
          cases here
          refine ⟨_, opens, List.cons_ne_nil _ _, open_, ?_⟩
          simpa using whole.symm
      · rw [Text.without_stop closed] at here
        simp at here
    · cases here
  · cases here

/-- A call goes up to the first closing bracket, and there is something in it. -/
theorem callHere_eq_some_iff {cs inner after : List Char} : callHere cs = some (inner, after) ↔
    ∃ opening, IsOpening opening ∧ inner ≠ [] ∧ ')' ∉ inner ∧ cs = opening ++ inner ++ ')' :: after := by
  constructor
  · intro here
    exact callHere_splits here
  · rintro ⟨opening, ⟨word, blanks, lower, blank, rfl⟩, nonempty, inside, rfl⟩
    have size : word.length = 4 := by
      have same := congrArg List.length lower
      simpa using same
    have front : (word ++ blanks ++ ['('] ++ inner ++ ')' :: after).take 4 = word := by
      simp [← size]
    have back : (word ++ blanks ++ ['('] ++ inner ++ ')' :: after).drop 4 =
        blanks ++ '(' :: (inner ++ ')' :: after) := by
      simp [← size]
    have bracket : Text.trimStart (blanks ++ '(' :: (inner ++ ')' :: after)) = '(' :: (inner ++ ')' :: after) := by
      unfold Text.trimStart
      rw [List.dropWhile_append_of_pos blank]
      exact Text.trimStart_cons (by decide)
    obtain ⟨closed, rest⟩ := Text.before_stop inside after
    unfold callHere
    rw [front, if_pos lower, back, bracket]
    simp only [closed, rest]
    obtain ⟨c, others, rfl⟩ := List.exists_cons_of_ne_nil nonempty
    rfl

theorem callHere_shorter {cs inner after : List Char} (here : callHere cs = some (inner, after)) :
    after.length < cs.length := by
  obtain ⟨opening, _, _, _, rfl⟩ := callHere_eq_some_iff.mp here
  simp
  omega

theorem findCall_here {cs inner after : List Char} (here : callHere cs = some (inner, after)) :
    findCall cs = some ⟨[], inner, after⟩ := by
  cases cs with
  | nil => cases here
  | cons c cs => simp [findCall, here]

/-- The first call stands behind the text before it. -/
theorem findCall_stands : ∀ {cs : List Char} {f : FoundCall}, findCall cs = some f →
    ∃ rest, cs = f.before ++ rest ∧ callHere rest = some (f.inner, f.after)
  | c :: cs, f, found => by
    unfold findCall at found
    split at found
    · rename_i here
      cases found
      exact ⟨_, rfl, here⟩
    · obtain ⟨g, later, rfl⟩ := Option.map_eq_some_iff.mp found
      obtain ⟨rest, whole, here⟩ := findCall_stands later
      refine ⟨rest, ?_, here⟩
      rw [whole, List.cons_append]

theorem findCall_shorter {cs : List Char} {f : FoundCall} (found : findCall cs = some f) :
    f.after.length < cs.length := by
  obtain ⟨rest, rfl, here⟩ := findCall_stands found
  have shorter := callHere_shorter here
  rw [List.length_append]
  omega

/-! ## Replacing -/

variable {s : DateSettings}

theorem resolveCalls_none {cs : List Char} (none : findCall cs = none) : resolveCalls s cs = pure cs := by
  unfold resolveCalls
  rw [none]

theorem resolveCalls_some {cs : List Char} {f : FoundCall} (found : findCall cs = some f) :
    resolveCalls s cs = (do
      let text ← renderCall s f.inner
      let rest ← resolveCalls s f.after
      return f.before ++ text.toList ++ rest) := by
  rw [resolveCalls]
  rw [found]
  simp [findCall_shorter found]

/-- The text of a call. -/
def dateCall (inner : List Char) : List Char := ['d', 'a', 't', 'e', '('] ++ inner ++ [')']

/-- A text that is a call is replaced by what the call writes. -/
theorem resolveCalls_dateCall {inner : List Char} (nonempty : inner ≠ []) (inside : ')' ∉ inner) (d : Dice) :
    resolveCalls s (dateCall inner) d =
      ((renderCall s inner d).1.map String.toList, (renderCall s inner d).2) := by
  have here : callHere (dateCall inner) = some (inner, []) := by
    apply callHere_eq_some_iff.mpr
    exact ⟨_, ⟨['d', 'a', 't', 'e'], [], by decide, nofun, rfl⟩, nonempty, inside, rfl⟩
  rw [resolveCalls_some (findCall_here here), Act.bind_apply]
  rcases renderCall s inner d with ⟨e | text, d'⟩
  · rfl
  · dsimp only
    rw [resolveCalls_none rfl]
    rw [Act.bind_ok (Act.pure_apply _ _), List.nil_append, List.append_nil]
    rfl

end Dynamic
end PageSpec
