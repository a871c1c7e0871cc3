import PageSpec.Proofs.Browser.Targets
/-!
The anchor of a climb. A parent is a written target, and a scope is to climb from what the target stands for.
It climbs from what the letters of the parent stand for instead, as a selector or as a text, without reading
them as a target; which parents this makes no difference to is said exactly.
-/
namespace PageSpec

namespace Locator
variable {l l' : Locator}

theorem climb_inj : ∀ (n : Nat) {l l' : Locator}, l.climb n = l'.climb n → l = l'
  | 0, _, _, same => same
  | n + 1, _, _, same => (add_inj (climb_inj n same)).1

/-- The locator narrowed by a selector, if there is one. -/
def narrowed (l : Locator) : Option String → Locator
  | none => l
  | some s => l.css s

theorem narrowed_inj {selector : Option String} (same : l.narrowed selector = l'.narrowed selector) : l = l' := by
  cases selector with
  | none => exact same
  | some s => exact (add_inj same).1

end Locator

/-! ## Anchors -/

/-- The letters of a parent stand for what the parent stands for if nothing happens to them when they are read
as a target. -/
theorem anchor_eq_allOf_iff {scope : Locator} {parent : String} :
    anchor scope parent = scope.allOf parent ↔ Target.Whole parent := by
  unfold anchor Locator.allOf
  constructor
  · intro same
    split at same
    · rename_i selects
      have read : scope.target (Target.classify parent) = scope.target (.selector parent) := same.symm
      exact (Target.classify_eq_selector_iff.mp (Locator.target_inj read)).1
    · have read : scope.target (Target.classify parent) = scope.target (.text parent) := same.symm
      exact (Target.literal_iff.mp (Target.classify_eq_text_iff.mp (Locator.target_inj read))).1
  · intro whole
    rw [Target.classify_whole whole]
    split <;> rfl

/-! ## Scopes -/

variable {σ : Type} [Browser σ]

/-- The scope that hints describe, inside a base, where `start` says which elements a parent stands for. -/
def scopeVia (start : Locator → String → Locator) (hints : HintView) (base : Locator) : Act σ Locator := do
  let scope := hints.frames.foldl (fun l f => l.add (.frame f)) base
  let scope ← narrow scope .root hints.root hints
  let scope ← climbVia scope
  narrow scope .within hints.within hints
where
  /-- The stage that climbs from the parent, if there is one. -/
  climbVia (scope : Locator) : Act σ Locator := do
    match hints.parent with
    | none => return scope
    | some parent =>
      ensureFound (start scope parent) .parent parent hints
      match hints.climb with
      | .ok levels => return (start scope parent).climb levels
      | .error e => throw e

/-- The scope of an action is the one whose parents stand for what their letters stand for. -/
theorem buildScope_eq (hints : HintView) (base : Locator) :
    (buildScope hints base : Act σ Locator) = scopeVia anchor hints base := rfl

section
variable {start : Locator → String → Locator} {hints : HintView} {base scope l : Locator} {parent : String}
  {s t : σ}

theorem narrow_eq_ok {stage : Stage} {selector : Option String}
    (done : narrow scope stage selector hints s = (.ok l, t)) : l = scope.narrowed selector := by
  cases selector with
  | none => cases done; rfl
  | some selector =>
    obtain ⟨_, _, _, returned⟩ := Act.bind_eq_ok done
    cases returned
    rfl

theorem climbVia_eq_ok (anchored : hints.parent = some parent)
    (done : scopeVia.climbVia start hints scope s = (.ok l, t)) :
    ∃ levels, hints.climb = .ok levels ∧ l = (start scope parent).climb levels := by
  unfold scopeVia.climbVia at done
  rw [anchored] at done
  obtain ⟨_, _, _, climbed⟩ := Act.bind_eq_ok done
  cases counted : hints.climb with
  | error e => rw [counted] at climbed; cases climbed
  | ok levels =>
    rw [counted] at climbed
    cases climbed
    exact ⟨levels, rfl, rfl⟩

/-- The scope with its frames and its root, where the parent is looked for. -/
def outerScope (hints : HintView) (base : Locator) : Locator :=
  (hints.frames.foldl (fun l f => l.add (.frame f)) base).narrowed hints.root

/-- A scope that is there shows which elements it was climbed from. -/
theorem scopeVia_eq_ok (anchored : hints.parent = some parent) (done : (scopeVia start hints base s).1 = .ok l) :
    ∃ levels, hints.climb = .ok levels ∧
      l = ((start (outerScope hints base) parent).climb levels).narrowed hints.within := by
  obtain ⟨t, done⟩ : ∃ t, scopeVia start hints base s = (.ok l, t) := ⟨_, Prod.ext done rfl⟩
  obtain ⟨outer, _, rooted, rest⟩ := Act.bind_eq_ok done
  obtain ⟨climbed, _, up, inner⟩ := Act.bind_eq_ok rest
  cases narrow_eq_ok rooted
  obtain ⟨levels, counted, rfl⟩ := climbVia_eq_ok anchored up
  exact ⟨levels, counted, narrow_eq_ok inner⟩

/-- Two ways to read a parent that lead to one scope read it in one way. -/
theorem start_eq_of_scopes {other : Locator → String → Locator} (anchored : hints.parent = some parent)
    (done : (scopeVia start hints base s).1 = .ok l) (same : (scopeVia other hints base s).1 = .ok l) :
    start (outerScope hints base) parent = other (outerScope hints base) parent := by
  obtain ⟨levels, counted, rfl⟩ := scopeVia_eq_ok anchored done
  obtain ⟨levels', counted', same⟩ := scopeVia_eq_ok anchored same
  cases counted.symm.trans counted'
  exact Locator.climb_inj _ (Locator.narrowed_inj same)

theorem scopeVia_congr {other : Locator → String → Locator} (anchored : hints.parent = some parent)
    (same : ∀ scope, start scope parent = other scope parent) :
    (scopeVia start hints base : Act σ Locator) = scopeVia other hints base := by
  have climbs (scope : Locator) :
      (scopeVia.climbVia start hints scope : Act σ Locator) = scopeVia.climbVia other hints scope := by
    unfold scopeVia.climbVia
    rw [anchored]
    dsimp only
    rw [same]
  unfold scopeVia
  simp only [climbs]

end

/-- A scope climbs from the elements that the parent means as a target if the parent is looked for as it
stands. Where a scope is found in either way, it is the same in no other case. -/
theorem anchor_exact {hints : HintView} {parent : String} (anchored : hints.parent = some parent)
    (base : Locator) :
    (∀ scope, anchor scope parent = scope.allOf parent ↔ Target.Whole parent) ∧
    (Target.Whole parent → (buildScope hints base : Act σ Locator) = scopeVia Locator.allOf hints base) ∧
    ∀ (s : σ) (l : Locator),
      (buildScope hints base s).1 = .ok l ∨ (scopeVia Locator.allOf hints base s).1 = .ok l →
        ((buildScope hints base s).1 = (scopeVia Locator.allOf hints base s).1 ↔ Target.Whole parent) := by
  have plainly (whole : Target.Whole parent) :
      (buildScope hints base : Act σ Locator) = scopeVia Locator.allOf hints base :=
    (buildScope_eq hints base).trans (scopeVia_congr anchored fun scope => anchor_eq_allOf_iff.mpr whole)
  refine ⟨fun scope => anchor_eq_allOf_iff, plainly, fun s l found => ⟨fun same => ?_, fun whole => ?_⟩⟩
  · have both : (buildScope hints base s).1 = .ok l ∧ (scopeVia Locator.allOf hints base s).1 = .ok l := by
      rcases found with found | found
      · exact ⟨found, same ▸ found⟩
      · exact ⟨same ▸ found, found⟩
    exact anchor_eq_allOf_iff.mp (start_eq_of_scopes anchored both.1 both.2)
  · rw [plainly whole]

/-- The hints of an action that has a parent and nothing else. -/
def parentHints (parent : String) : HintView := ⟨{ Hints.none with parent := some parent }, none⟩

/-- A section of a class inside the main part of a page. -/
def rowPage : Page :=
  let section_ : Page.Element :=
    .mk { Page.Traits.ofTag "section" with classes := ["row"] } ⟨"", false, 0⟩ none []
  .ofDocument [.mk (Page.Traits.ofTag "main") ⟨"", false, 0⟩ none [section_]]

/-- The class is found as it stands. -/
theorem row_anchored :
    (parentHints ".row").parent = some ".row" ∧ Target.Whole ".row" ∧
      (scopeVia Locator.allOf (parentHints ".row") .page rowPage).1 =
        .ok ((Locator.page.css ".row").add .parent) ∧
      (buildScope (parentHints ".row") .page rowPage).1 = .ok ((Locator.page.css ".row").add .parent) := by
  have anchored : (parentHints ".row").parent = some ".row" := rfl
  have whole : Target.Whole ".row" := ⟨by decide, by decide, by decide⟩
  have found : (scopeVia Locator.allOf (parentHints ".row") .page rowPage).1 =
      .ok ((Locator.page.css ".row").add .parent) := eq_ok_of_toOption (by decide +kernel)
  obtain ⟨_, _, same⟩ := anchor_exact (σ := Page) anchored .page
  exact ⟨anchored, whole, found, ((same rowPage _ (.inr found)).mpr whole).trans found⟩

/-- Marked as a selector, the class is found as a target and not as a parent. -/
theorem markedRow_lost : ¬ ∀ (hints : HintView) (parent : String) (base l : Locator) (p : Page),
    hints.parent = some parent → (scopeVia Locator.allOf hints base p).1 = .ok l →
      (buildScope hints base p).1 = .ok l := by
  intro always
  have found : (scopeVia Locator.allOf (parentHints "css:.row") .page rowPage).1 =
      .ok ((Locator.page.css ".row").add .parent) := eq_ok_of_toOption (by decide +kernel)
  have lost : (buildScope (parentHints "css:.row") .page rowPage).1.toOption = none := by decide +kernel
  rw [always _ "css:.row" _ _ _ rfl found] at lost
  cases lost

end PageSpec
