import PageSpec.Browser.Basic
import PageSpec.Hints
/-!
From written targets to locators that exist. The scope of an action is the page, narrowed by frames,
a root, a parent anchor and an inner selector, in this order; the target is searched in the scope,
and one of its matches is picked. Frames are entered unseen, every other stage has to match something.
-/
namespace PageSpec

namespace Locator

/-- All matches of a written target. -/
def allOf (scope : Locator) (raw : String) : Locator := scope.target (Target.classify raw)

/-- The match of a written target that the hints pick. -/
def oneOf (scope : Locator) (raw : String) (hints : HintView) : Except Failure Locator :=
  return (scope.allOf raw).pick (← hints.pick)

/-- The locator climbed up by some levels. -/
def climb (l : Locator) : Nat → Locator
  | 0 => l
  | n + 1 => (l.add .parent).climb n

end Locator

variable {σ : Type} [Browser σ]

/-- The number of matches; where counting fails there are none. -/
def countMatches (l : Locator) : Act σ Nat :=
  tryCatch (Browser.count l) fun _ => return 0

/-- Fails unless the locator matches something. -/
def ensureFound (l : Locator) (stage : Stage) (raw : String) (hints : HintView) : Act σ Unit := do
  if (← countMatches l) = 0 then throw (.notFound stage raw hints.describe)

/-- The one element that a target means. -/
def locate (scope : Locator) (raw : String) (hints : HintView) : Act σ Locator := do
  let l ← liftExcept (scope.oneOf raw hints)
  ensureFound l .target raw hints
  return l
where
  liftExcept (r : Except Failure Locator) : Act σ Locator := ExceptT.mk (pure r)

/-- All elements that a target means. -/
def locateAll (scope : Locator) (raw : String) (hints : HintView) (stage : Stage) :
    Act σ Locator := do
  let l := scope.allOf raw
  ensureFound l stage raw hints
  return l

/-! ## Scopes -/

/-- A stage that narrows the scope by a selector, if the hint is there. -/
def narrow (scope : Locator) (stage : Stage) (selector : Option String) (hints : HintView) :
    Act σ Locator := do
  match selector with
  | none => return scope
  | some s =>
    let narrowed := scope.css s
    ensureFound narrowed stage s hints
    return narrowed

/-- The anchor that a climb starts from. -/
def anchor (scope : Locator) (parent : String) : Locator :=
  if isSelectorText parent then scope.css parent else scope.text parent

/-- The stage that climbs from the parent anchor, if there is one. -/
def climbFrom (scope : Locator) (hints : HintView) : Act σ Locator := do
  match hints.parent with
  | none => return scope
  | some parent =>
    let start := anchor scope parent
    ensureFound start .parent parent hints
    match hints.climb with
    | .ok levels => return start.climb levels
    | .error e => throw e

/-- The scope that hints describe, inside a base. -/
def buildScope (hints : HintView) (base : Locator) : Act σ Locator := do
  let scope := hints.frames.foldl (fun l f => l.add (.frame f)) base
  let scope ← narrow scope .root hints.root hints
  let scope ← climbFrom scope hints
  narrow scope .within hints.within hints

end PageSpec
