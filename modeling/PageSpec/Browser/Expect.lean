import PageSpec.Browser.Basic
import PageSpec.Text.Blank
/-!
Awaiting expectations. An expectation is looked at again and again until it holds or its time is up;
failures on the way are observations like any other.
-/
namespace PageSpec

/-- How long to wait and how often to look, in milliseconds. -/
structure Patience where
  timeout : Nat
  interval : Nat
  deriving DecidableEq, Repr

namespace Patience

def default : Patience := ⟨5000, 100⟩
/-- The same with another time limit, if one is given. -/
def within (p : Patience) (timeout : Option Nat) : Patience :=
  { p with timeout := timeout.getD p.timeout }

/-- The length of a pause; none is shorter than a millisecond. -/
def step (p : Patience) : Nat := max 1 p.interval
/-- How many pauses there are before the last look. -/
def pauses (p : Patience) : Nat := (p.timeout + p.step - 1) / p.step
/-- The instant of a look: one step after another, and at last just when the time is up. -/
def instant (p : Patience) (k : Nat) : Nat := min (k * p.step) p.timeout

end Patience

/-- What a look at the page shows. -/
inductive Sight where
  | met
  | unmet (seen : String)
  deriving DecidableEq, Repr

/-- A look that holds or shows something else. -/
def Sight.when (held : Bool) (seen : String) : Sight := if held then .met else .unmet seen

variable {σ : Type}

/-- A look at an instant; a failure of the look is what it shows. -/
def look (probe : Nat → Act σ Sight) (instant : Nat) : Act σ Sight :=
  tryCatch (probe instant) fun e => return .unmet e.message

/-- The looks from number `k` on, with `pauses` between them. What the last one shows goes into the
failure. -/
def pollFrom (p : Patience) (probe : Nat → Act σ Sight) (unmet : String → Failure) (k : Nat)
    (pauses : Nat) : Act σ Unit := do
  match ← look probe (p.instant k) with
  | .met => return
  | .unmet seen =>
    match pauses with
    | 0 => throw (unmet seen)
    | n + 1 => pollFrom p probe unmet (k + 1) n

/-- Looks until something holds, as long as patience lasts. -/
def poll (patience : Patience) (what : Expectation) (probe : Nat → Act σ Sight) : Act σ Unit :=
  pollFrom patience probe (fun seen => .assertion (.expected what patience.timeout seen)) 0
    patience.pauses

variable [Browser σ]

/-- One look at an expectation. Texts are compared with their blanks collapsed, values and locations
as they are. -/
def Expectation.probe : Expectation → Act σ Sight
  | .text l expected => do
    let t := Text.collapse ((← Browser.textContent l).getD "")
    return .when (t == Text.collapse expected) (Text.quote t)
  | .textPart l needle => do
    let t := Text.collapse ((← Browser.textContent l).getD "")
    return .when (Text.has t (Text.collapse needle)) (Text.quote t)
  | .visible l => return .when (← Browser.isVisible l) "hidden or detached"
  | .value l expected => do
    let v ← Browser.inputValue l
    return .when (v == expected) (Text.quote v)
  | .valuePart l needle => do
    let v ← Browser.inputValue l
    return .when (Text.has v needle) (Text.quote v)
  | .url expected => do
    let u ← Browser.currentUrl
    return .when (u == expected) u
  | .urlPart needle => do
    let u ← Browser.currentUrl
    return .when (Text.has u needle) u
  | .pageText needle => do
    let t := Text.collapse (← Browser.pageText)
    return .when (Text.has t (Text.collapse needle)) "text absent from page"

/-- Awaits an expectation. -/
def await (patience : Patience) (e : Expectation) : Act σ Unit :=
  poll patience e fun _ => e.probe

/-- The expectation that an element with exactly this text is visible, wherever it is. -/
def Expectation.exactText (t : String) : Expectation := .visible (Locator.page.text (Text.collapse t))

end PageSpec
