import PageSpec.Failure
import PageSpec.Network.Route
/-!
What is asked of a browser session. A session is a state; each capability changes it and answers or
fails, and what it did before failing stays done. Capabilities on an element act on the first element
that the locator stands for.
-/
namespace PageSpec

/-- Which options of a list to select. -/
inductive Choice where
  /-- By their values. -/
  | values (wanted : List String)
  /-- By their visible texts. -/
  | labels (wanted : List String)
  /-- By their positions from 0. -/
  | indexes (wanted : List Nat)
  deriving DecidableEq, Repr

/-- How a page moves when it scrolls. -/
inductive ScrollBehavior where
  | auto | smooth | instant
  deriving DecidableEq, Repr

namespace ScrollBehavior

def word : ScrollBehavior → String
  | .auto => "auto"
  | .smooth => "smooth"
  | .instant => "instant"

def parse (w : String) : Except Failure ScrollBehavior :=
  match [auto, smooth, instant].find? (·.word == w) with
  | some b => .ok b
  | none => .error (.mistake (.scrollBehavior w))

end ScrollBehavior

/-- Where a page scrolls to; a missing coordinate stays as it is. -/
inductive PageScroll where
  | top
  | bottom
  | point (x y : Option Binary64) (behavior : ScrollBehavior)
  deriving DecidableEq, Repr

/-- A computation on a session. -/
abbrev Act (σ : Type) := ExceptT Failure (StateM σ)

/-- The capabilities of a session. -/
class Browser (σ : Type) where
  /-- Starts the session. -/
  start : Act σ Unit
  navigate (url : String) : Act σ Unit
  currentUrl : Act σ String
  /-- The number of elements that a locator stands for. -/
  count (l : Locator) : Act σ Nat
  /-- Clicks; a forced click skips every check. -/
  click (l : Locator) (force : Bool) : Act σ Unit
  hover (l : Locator) : Act σ Unit
  /-- Replaces the value of an input. -/
  fill (l : Locator) (text : String) : Act σ Unit
  /-- Types character by character, with pauses in milliseconds. -/
  typeText (l : Locator) (text : String) (delay : Nat) : Act σ Unit
  /-- Presses a chord of keys, on an element or on whatever has the focus. -/
  press (l : Option Locator) (chord : String) : Act σ Unit
  setChecked (l : Locator) (checked : Bool) : Act σ Unit
  /-- Selects options and yields their values. -/
  selectOptions (l : Locator) (choice : Choice) : Act σ (List String)
  attachFiles (l : Locator) (paths : List String) : Act σ Unit
  textContent (l : Locator) : Act σ (Option String)
  inputValue (l : Locator) : Act σ String
  attributeOf (l : Locator) (name : String) : Act σ (Option String)
  /-- The tag in small letters. -/
  tagName (l : Locator) : Act σ String
  fileCount (l : Locator) : Act σ Nat
  isVisible (l : Locator) : Act σ Bool
  scrollIntoView (l : Locator) : Act σ Unit
  scrollPage (goal : PageScroll) : Act σ Unit
  /-- A picture of an element, or of the page. -/
  screenshot (l : Option Locator) (fullPage : Bool) : Act σ (List UInt8)
  /-- The text of the whole page. -/
  pageText : Act σ String
  /-- The next response whose URL and status fit, within some milliseconds. The body is read if the
  condition needs it, and checked by the caller. -/
  awaitResponse (m : Network.Matcher) (timeout : Nat) : Act σ Network.Response
  route (rule : Network.Rule) : Act σ Unit
  unroute (source : String) : Act σ Unit
  close : Act σ Unit

end PageSpec
