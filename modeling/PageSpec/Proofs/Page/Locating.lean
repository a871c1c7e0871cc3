import PageSpec.Browser.Locate
import PageSpec.Page.Session
import PageSpec.Proofs.Effect
import PageSpec.Proofs.Page.Family
/-!
Locating on a page in memory: what one more step does to a resolved locator, and what counting,
finding and picking come to. None of them leaves a trace on the page.
-/
namespace PageSpec

theorem Step.frame_or_inside (s : Step) : (∃ selector, s = .frame selector) ∨ ∀ selector, s ≠ .frame selector := by
  cases s with
  | frame selector => exact .inl ⟨selector, rfl⟩
  | css | text | tagText | parent | first | last | nth => exact .inr nofun

namespace Locator
variable {l l' : Locator} {s s' : Step}

theorem eq_page_or_add (l : Locator) : l = page ∨ ∃ outer s, l = add outer s := by
  rcases List.eq_nil_or_concat l.steps with bare | ⟨before, s, chain⟩
  · exact .inl (congrArg mk bare)
  · exact .inr ⟨⟨before⟩, s, congrArg mk (chain.trans List.concat_eq_append)⟩

theorem page_ne_add : page ≠ l.add s := by
  intro same
  have chain : [] = l.steps ++ [s] := congrArg steps same
  simp at chain

theorem add_inj (same : l.add s = l'.add s') : l = l' ∧ s = s' := by
  have chain : l.steps ++ [s] = l'.steps ++ [s'] := congrArg steps same
  obtain ⟨before, last⟩ := List.append_inj' chain rfl
  exact ⟨congrArg mk before, List.head_eq_of_cons_eq last⟩

end Locator

namespace Page
variable {f : Forest} {l scope : Locator} {es : List Nat}

/-! ## One more step -/

theorem scopeOf_add (f : Forest) (l : Locator) (s : Step) :
    scopeOf f (l.add s) = (scopeOf f l).bind (step f · s) := by
  unfold scopeOf Locator.add
  rw [List.foldlM_append]
  cases (List.foldlM (step f) (Scope.documents [0]) l.steps) with
  | error e => rfl
  | ok sc => exact bind_pure (step f sc s)

theorem scopeOf_add_ok {s : Step} {out : Scope} :
    scopeOf f (l.add s) = .ok out ↔ ∃ sc, scopeOf f l = .ok sc ∧ step f sc s = .ok out := by
  rw [scopeOf_add]
  cases scopeOf f l with
  | error e => exact ⟨nofun, fun ⟨_, reached, _⟩ => nomatch reached⟩
  | ok sc =>
    constructor
    · intro stepped
      exact ⟨sc, rfl, stepped⟩
    · rintro ⟨_, reached, stepped⟩
      cases reached
      exact stepped

theorem resolve_eq_ok_iff : resolve f l = .ok es ↔ ∃ sc, scopeOf f l = .ok sc ∧ sc.matched f = es := by
  unfold resolve
  cases scopeOf f l with
  | error e =>
    constructor
    · intro h; cases h
    · rintro ⟨_, h, _⟩; cases h
  | ok sc =>
    constructor
    · intro h; exact ⟨sc, rfl, Except.ok.inj h⟩
    · rintro ⟨_, same, rfl⟩; cases same; rfl

/-- A pick narrows the matches and does nothing else. -/
theorem resolve_pick (found : resolve f l = .ok es) (pick : Pick) :
    resolve f (l.pick pick) = .ok (match pick with
      | .first => es.take 1
      | .last => es.getLast?.toList
      | .nth n => nth es n) := by
  obtain ⟨sc, reached, rfl⟩ := resolve_eq_ok_iff.mp found
  cases pick <;> exact resolve_eq_ok_iff.mpr ⟨.elements _, scopeOf_add_ok.mpr ⟨sc, reached, rfl⟩, rfl⟩

theorem resolve_nth (found : resolve f l = .ok es) (n : Int) :
    resolve f (l.add (.nth n)) = .ok (nth es n) := resolve_pick found (.nth n)

/-- What cannot be resolved cannot be picked from. -/
theorem resolve_pick_lost {e : BadSelector} (lost : resolve f l = .error e) (pick : Pick) :
    ∃ e', resolve f (l.pick pick) = .error e' := by
  have outer : ∀ sc, scopeOf f l ≠ .ok sc := fun sc reached =>
    nomatch lost.symm.trans (resolve_eq_ok_iff.mpr ⟨sc, reached, rfl⟩)
  cases found : resolve f (l.pick pick) with
  | error e' => exact ⟨e', rfl⟩
  | ok es =>
    obtain ⟨out, reached, _⟩ := resolve_eq_ok_iff.mp found
    have added : ∃ s, l.pick pick = l.add s := by cases pick <;> exact ⟨_, rfl⟩
    obtain ⟨s, same⟩ := added
    obtain ⟨sc, before, _⟩ := scopeOf_add_ok.mp (same ▸ reached)
    exact absurd before (outer sc)

theorem nth_ofNat {i : Nat} (inside : i < es.length) : nth es i = [es[i]] := by
  unfold nth
  have positive : ¬ (i : Int) < 0 := by omega
  have counted : (0 : Int) ≤ (i : Int) := by omega
  simp only [positive, counted, ↓reduceIte, Int.toNat_natCast, List.getElem?_eq_getElem inside,
    Option.toList_some]

/-- What every step of a locator keeps, its scope has. -/
theorem scopeOf_keeps {P : Scope → Prop} {sc : Scope}
    (reached : scopeOf f l = .ok sc)
    (keeps : ∀ s ∈ l.steps, ∀ before after, P before → step f before s = .ok after → P after)
    (start : P (.documents [0])) : P sc := foldlM_keeps reached keeps start

/-! ## What a step gives -/

/-- How a step that stays in its documents comes by a node: a search looks at it, a match has it for a
parent, or it is a match. -/
inductive Scope.Gives (f : Forest) (sc : Scope) (i : Nat) : Prop
  | searched (there : i ∈ f.places) (covered : sc.covers f i = true)
  | parent {c : Nat} (member : c ∈ sc.matched f) (hangs : f.ParentOf i c)
  | picked (member : i ∈ sc.matched f)

section
variable {sc out : Scope} {i : Nat} {keep : Nat → Bool} {selector : String} {groups : List Chain}

theorem Scope.mem_search : i ∈ sc.search f keep ↔ i ∈ f.places ∧ sc.covers f i = true ∧ keep i = true := by
  unfold Scope.search
  rw [List.mem_filter, Bool.and_eq_true]

theorem Scope.search_gives (member : i ∈ sc.search f keep) : sc.Gives f i :=
  .searched (Scope.mem_search.mp member).1 (Scope.mem_search.mp member).2.1

theorem select_parsed (parsed : parseSelector selector = .ok groups) :
    select f sc selector = .ok (sc.search f (selected f groups)) := by
  unfold select
  rw [parsed]

theorem select_eq_ok (found : select f sc selector = .ok es) :
    ∃ groups, parseSelector selector = .ok groups ∧ sc.search f (selected f groups) = es := by
  cases parsed : parseSelector selector with
  | ok groups => exact ⟨groups, rfl, Except.ok.inj ((select_parsed parsed).symm.trans found)⟩
  | error e =>
    unfold select at found
    rw [parsed] at found
    cases found

theorem select_sorted (found : select f sc selector = .ok es) : es.Pairwise (· < ·) := by
  obtain ⟨groups, _, rfl⟩ := select_eq_ok found
  exact f.places_sorted.filter _

theorem select_gives (found : select f sc selector = .ok es) (member : i ∈ es) : sc.Gives f i := by
  obtain ⟨groups, _, rfl⟩ := select_eq_ok found
  exact Scope.search_gives member

/-- The parts of a scope together are what a search looks at. -/
theorem Scope.mem_candidates_iff :
    (∃ part ∈ sc.candidates f, i ∈ part) ↔ i ∈ f.places ∧ sc.covers f i = true := by
  cases sc with
  | documents ds =>
    simp only [candidates, covers, List.mem_map, exists_exists_and_eq_and, Forest.mem_document, Option.any_eq_true,
      List.contains_iff_mem]
    constructor
    · rintro ⟨d, listed, n, found, rfl⟩
      exact ⟨Forest.mem_places.mpr (Forest.node?_lt found), n, found, listed⟩
    · rintro ⟨_, n, found, listed⟩
      exact ⟨n.doc, listed, n, found, rfl⟩
  | elements es =>
    simp only [candidates, covers, List.mem_map, exists_exists_and_eq_and, Forest.descendants, List.mem_filter, List.any_eq_true]
    constructor
    · rintro ⟨e, listed, there, below⟩
      exact ⟨there, e, listed, below⟩
    · rintro ⟨there, e, listed, below⟩
      exact ⟨e, listed, there, below⟩

theorem deepest_subset {t : String} {part : List Nat} (member : i ∈ deepest f t part) : i ∈ part :=
  List.mem_of_mem_filter (List.mem_of_mem_filter member)

theorem withText_sorted (f : Forest) (sc : Scope) (t : String) : (withText f sc t).Pairwise (· < ·) :=
  f.places_sorted.filter _

theorem withText_gives {t : String} (member : i ∈ withText f sc t) : sc.Gives f i := by
  obtain ⟨there, found⟩ := List.mem_filter.mp member
  obtain ⟨part, listed, deep⟩ := List.mem_flatMap.mp (List.contains_iff_mem.mp found)
  exact .searched there (Scope.mem_candidates_iff.mp ⟨part, listed, deepest_subset deep⟩).2

theorem step_frame_iff : step f sc (.frame selector) = .ok out ↔ ∃ frames, select f sc selector = .ok frames ∧
    .documents (frames.filterMap fun i => (f.node? i).bind (·.content)) = out := bind_pure_eq_ok

theorem step_css_iff : step f sc (.css selector) = .ok out ↔ ∃ es, select f sc selector = .ok es ∧
    .elements es = out := bind_pure_eq_ok

private theorem one_sorted (o : Option Nat) : o.toList.Pairwise (· < ·) := by
  cases o <;> simp

private theorem nth_sorted (es : List Nat) (n : Int) : (nth es n).Pairwise (· < ·) := by
  unfold nth
  generalize (if n < 0 then (es.length : Int) + n else n) = place
  dsimp only
  split
  · exact one_sorted _
  · exact .nil

private theorem mem_of_mem_nth {n : Int} (member : i ∈ nth es n) : i ∈ es := by
  unfold nth at member
  generalize (if n < 0 then (es.length : Int) + n else n) = place at member
  dsimp only at member
  split at member
  · exact List.mem_of_getElem? (Option.mem_toList.mp member)
  · cases member

/-- Every step but one into a frame leads to nodes it gives, in document order, each once. -/
theorem step_elements {s : Step} (inside : ∀ selector, s ≠ .frame selector) (stepped : step f sc s = .ok out) :
    ∃ es, out = .elements es ∧ es.Pairwise (· < ·) ∧ ∀ i ∈ es, sc.Gives f i := by
  cases s with
  | frame selector => exact absurd rfl (inside selector)
  | css selector =>
    obtain ⟨found, selected, rfl⟩ := step_css_iff.mp stepped
    exact ⟨found, rfl, select_sorted selected, fun i member => select_gives selected member⟩
  | tagText tag part =>
    obtain ⟨tagged, selected, rfl⟩ := bind_pure_eq_ok.mp stepped
    refine ⟨_, rfl, (select_sorted selected).filter _, fun i member => ?_⟩
    exact select_gives selected (List.mem_filter.mp member).1
  | text t =>
    cases stepped
    exact ⟨_, rfl, withText_sorted f sc t, fun i member => withText_gives member⟩
  | parent =>
    cases stepped
    refine ⟨_, rfl, f.places_sorted.filter _, fun i member => ?_⟩
    obtain ⟨c, child, hangs⟩ := List.mem_filterMap.mp (List.contains_iff_mem.mp (List.mem_filter.mp member).2)
    exact .parent child hangs
  | first =>
    cases stepped
    refine ⟨_, rfl, ?_, fun i member => .picked (List.mem_of_mem_take member)⟩
    cases sc.matched f <;> simp
  | last =>
    cases stepped
    exact ⟨_, rfl, one_sorted _, fun i member => .picked (List.mem_of_getLast? (Option.mem_toList.mp member))⟩
  | nth n =>
    cases stepped
    exact ⟨_, rfl, nth_sorted _ n, fun i member => .picked (mem_of_mem_nth member)⟩

end

/-! ## Order -/

/-- The matches of a written target stand in document order, each once. -/
theorem resolve_allOf_sorted {raw : String} (found : resolve f (scope.allOf raw) = .ok es) :
    es.Pairwise (· < ·) := by
  have added : ∃ s, scope.allOf raw = scope.add s ∧ ∀ selector, s ≠ .frame selector := by
    unfold Locator.allOf
    cases Target.classify raw with
    | selector s => exact ⟨.css s, rfl, by simp⟩
    | tagText tag part => exact ⟨.tagText tag part, rfl, by simp⟩
    | text t => exact ⟨.text t, rfl, by simp⟩
  obtain ⟨s, same, inside⟩ := added
  obtain ⟨out, reached, rfl⟩ := resolve_eq_ok_iff.mp found
  rw [same] at reached
  obtain ⟨sc, _, stepped⟩ := scopeOf_add_ok.mp reached
  obtain ⟨found, rfl, sorted, _⟩ := step_elements inside stepped
  exact sorted

/-! ## Counting and finding -/

theorem matches_ok {p : Page} (found : resolve p.forest l = .ok es) : matches_ l p = (.ok es, p) := by
  unfold matches_
  rw [Act.bind_ok (Act.get_apply p)]
  simp only [found]
  rfl

theorem count_ok {p : Page} (found : resolve p.forest l = .ok es) :
    (Browser.count l : Act Page Nat) p = (.ok es.length, p) :=
  Act.bind_ok (matches_ok found) _

theorem countMatches_ok {p : Page} (found : resolve p.forest l = .ok es) :
    countMatches l p = (.ok es.length, p) := by
  unfold countMatches
  rw [Act.tryCatch_apply, count_ok found]

theorem ensureFound_ok {p : Page} (found : resolve p.forest l = .ok es) (stage : Stage) (raw : String)
    (hints : HintView) : ensureFound l stage raw hints p =
      if es = [] then (.error (.notFound stage raw hints.describe), p) else (.ok (), p) := by
  unfold ensureFound
  rw [Act.bind_ok (countMatches_ok found)]
  simp only [List.length_eq_zero_iff]
  split <;> rfl

theorem isVisible_ok {p : Page} (found : resolve p.forest l = .ok es) :
    (Browser.isVisible l : Act Page Bool) p = (.ok (es.head?.any p.forest.visible), p) := by
  cases es with
  | nil => exact Act.bind_ok (matches_ok found) _
  | cons i rest =>
    refine (Act.bind_ok (matches_ok found) _).trans ?_
    exact Act.bind_ok (Act.get_apply p) _

theorem locateAll_ok {p : Page} {raw : String} (found : resolve p.forest (scope.allOf raw) = .ok es)
    (hints : HintView) (stage : Stage) : locateAll scope raw hints stage p =
      if es = [] then (.error (.notFound stage raw hints.describe), p) else (.ok (scope.allOf raw), p) := by
  have ensured := ensureFound_ok found stage raw hints
  unfold locateAll
  by_cases none : es = []
  · rw [if_pos none] at ensured ⊢
    exact Act.bind_error ensured _
  · rw [if_neg none] at ensured ⊢
    exact Act.bind_ok ensured _

theorem located_cons {p : Page} {i : Nat} (found : resolve p.forest l = .ok (i :: es)) :
    located l p = (.ok i, p) := by
  unfold located
  rw [Act.bind_ok (matches_ok found)]
  rfl

theorem recorded_cons {p : Page} {i : Nat} (found : resolve p.forest l = .ok (i :: es)) (call : Call) :
    recorded call l p = (.ok i, { p with history := p.history ++ [call] }) := by
  let q : Page := { p with history := p.history ++ [call] }
  have reached : located l q = (.ok i, q) := located_cons found
  exact (Act.bind_ok (Act.modify_apply _ p) _).trans reached

theorem textContent_cons {p : Page} {i : Nat} (found : resolve p.forest l = .ok (i :: es)) :
    (Browser.textContent l : Act Page (Option String)) p = (.ok (some (p.forest.text i)), p) :=
  (Act.bind_ok (located_cons found) _).trans (Act.bind_ok (Act.get_apply p) _)

/-! ## One element -/

/-- The element that a target means in a scope, picked as the hints say. -/
def named (f : Forest) (scope : Locator) (raw : String) (hints : HintView) : Option Nat :=
  match scope.oneOf raw hints with
  | .ok l =>
    match resolve f l with
    | .ok found => found.head?
    | .error _ => none
  | .error _ => none

theorem countMatches_lost {p : Page} {e : BadSelector} (lost : resolve p.forest l = .error e) :
    countMatches l p = (.ok 0, p) := by
  have missed : matches_ l p = (.error (.session (.selector e.text e.error)), p) := by
    unfold matches_
    rw [Act.bind_ok (Act.get_apply p)]
    simp only [lost]
    rfl
  unfold countMatches
  rw [Act.tryCatch_apply]
  have failed : (Browser.count l : Act Page Nat) p = _ := Act.bind_error missed _
  rw [failed]
  rfl

theorem ensureFound_lost {p : Page} {e : BadSelector} (lost : resolve p.forest l = .error e)
    (stage : Stage) (raw : String) (hints : HintView) :
    ensureFound l stage raw hints p = (.error (.notFound stage raw hints.describe), p) := by
  unfold ensureFound
  rw [Act.bind_ok (countMatches_lost lost)]
  rfl

theorem oneOf_eq {raw : String} {hints : HintView} :
    scope.oneOf raw hints = hints.pick.map (scope.allOf raw).pick := by
  unfold Locator.oneOf
  cases hints.pick <;> rfl

section
variable {p : Page} {raw : String} {hints : HintView} {pick : Pick}

theorem locate_refused {e : Failure} (refused : hints.pick = .error e) :
    locate scope raw hints p = (.error e, p) := by
  unfold locate
  rw [oneOf_eq, refused]
  rfl

theorem locate_ensures (picked : hints.pick = .ok pick) : locate scope raw hints p =
    (ensureFound ((scope.allOf raw).pick pick) .target raw hints >>= fun _ => pure ((scope.allOf raw).pick pick)) p := by
  unfold locate
  rw [oneOf_eq, picked]
  exact Act.bind_ok rfl _

theorem locate_picked (picked : hints.pick = .ok pick)
    (found : resolve p.forest ((scope.allOf raw).pick pick) = .ok es) : locate scope raw hints p =
      if es = [] then (.error (.notFound .target raw hints.describe), p)
      else (.ok ((scope.allOf raw).pick pick), p) := by
  have ensured := ensureFound_ok found .target raw hints
  rw [locate_ensures picked]
  by_cases none : es = []
  · rw [if_pos none] at ensured ⊢
    exact Act.bind_error ensured _
  · rw [if_neg none] at ensured ⊢
    exact Act.bind_ok ensured _

theorem locate_lost {e : BadSelector} (picked : hints.pick = .ok pick)
    (lost : resolve p.forest ((scope.allOf raw).pick pick) = .error e) :
    locate scope raw hints p = (.error (.notFound .target raw hints.describe), p) := by
  rw [locate_ensures picked]
  exact Act.bind_error (ensureFound_lost lost .target raw hints) _

end

/-- Locating a target that means an element gives a locator that stands for it. -/
theorem locate_some {p : Page} {raw : String} {hints : HintView} {i : Nat}
    (meant : named p.forest scope raw hints = some i) :
    ∃ l es, locate scope raw hints p = (.ok l, p) ∧ resolve p.forest l = .ok (i :: es) := by
  unfold named at meant
  rw [oneOf_eq] at meant
  cases picked : hints.pick with
  | error e => rw [picked] at meant; cases meant
  | ok pick =>
    rw [picked] at meant
    simp only [Except.map] at meant
    cases found : resolve p.forest ((scope.allOf raw).pick pick) with
    | error e => rw [found] at meant; cases meant
    | ok es =>
      rw [found] at meant
      cases es with
      | nil => cases meant
      | cons j es =>
        cases meant
        exact ⟨_, es, locate_picked picked found, found⟩

/-- Locating a target that means no element fails. -/
theorem locate_none {p : Page} {raw : String} {hints : HintView}
    (lost : named p.forest scope raw hints = none) : ∃ e, locate scope raw hints p = (.error e, p) := by
  unfold named at lost
  rw [oneOf_eq] at lost
  cases picked : hints.pick with
  | error e => exact ⟨e, locate_refused picked⟩
  | ok pick =>
    rw [picked] at lost
    simp only [Except.map] at lost
    cases found : resolve p.forest ((scope.allOf raw).pick pick) with
    | error e => exact ⟨_, locate_lost picked found⟩
    | ok es =>
      rw [found] at lost
      cases es with
      | nil => exact ⟨_, locate_picked picked found⟩
      | cons j es => cases lost

end Page
end PageSpec
