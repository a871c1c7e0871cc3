import PageSpec.Browser.Expect
import PageSpec.Browser.Locate
import PageSpec.Proofs.Agreement
/-!
Sessions that answer alike. Whatever one of two related sessions is asked, the other answers the same, and they stay
related. Locating targets, building scopes and awaiting expectations then come to the same on both.
-/
namespace PageSpec
variable {σ τ : Type}

/-- Looks that agree are looked at alike. -/
theorem pollFrom_agrees {R : σ → τ → Prop} (p : Patience) {probe : Nat → Act σ Sight} {probe' : Nat → Act τ Sight}
    (unmet : String → Failure) (agree : ∀ t, Agree R (probe t) (probe' t)) (k n : Nat) :
    Agree R (pollFrom p probe unmet k n) (pollFrom p probe' unmet k n) := by
  have looked (t : Nat) : Agree R (look probe t) (look probe' t) := (agree t).tryCatch fun _ => .pure _
  induction n generalizing k with
  | zero =>
    rw [pollFrom, pollFrom]
    refine (looked _).bind fun sight => ?_
    cases sight with
    | met => exact .pure _
    | unmet seen => exact .throw _
  | succ n ih =>
    rw [pollFrom, pollFrom]
    refine (looked _).bind fun sight => ?_
    cases sight with
    | met => exact .pure _
    | unmet seen => exact ih (k + 1)

variable [Browser σ] [Browser τ]

/-- Every capability agrees along a relation of sessions, starting and ending apart. -/
structure Browser.Alike (R : σ → τ → Prop) : Prop where
  navigate : ∀ url, Agree R (Browser.navigate url) (Browser.navigate url)
  currentUrl : Agree R Browser.currentUrl Browser.currentUrl
  count : ∀ l, Agree R (Browser.count l) (Browser.count l)
  click : ∀ l force, Agree R (Browser.click l force) (Browser.click l force)
  hover : ∀ l, Agree R (Browser.hover l) (Browser.hover l)
  fill : ∀ l text, Agree R (Browser.fill l text) (Browser.fill l text)
  typeText : ∀ l text delay, Agree R (Browser.typeText l text delay) (Browser.typeText l text delay)
  press : ∀ l chord, Agree R (Browser.press l chord) (Browser.press l chord)
  setChecked : ∀ l checked, Agree R (Browser.setChecked l checked) (Browser.setChecked l checked)
  selectOptions : ∀ l choice, Agree R (Browser.selectOptions l choice) (Browser.selectOptions l choice)
  attachFiles : ∀ l paths, Agree R (Browser.attachFiles l paths) (Browser.attachFiles l paths)
  textContent : ∀ l, Agree R (Browser.textContent l) (Browser.textContent l)
  inputValue : ∀ l, Agree R (Browser.inputValue l) (Browser.inputValue l)
  attributeOf : ∀ l name, Agree R (Browser.attributeOf l name) (Browser.attributeOf l name)
  tagName : ∀ l, Agree R (Browser.tagName l) (Browser.tagName l)
  fileCount : ∀ l, Agree R (Browser.fileCount l) (Browser.fileCount l)
  isVisible : ∀ l, Agree R (Browser.isVisible l) (Browser.isVisible l)
  scrollIntoView : ∀ l, Agree R (Browser.scrollIntoView l) (Browser.scrollIntoView l)
  scrollPage : ∀ goal, Agree R (Browser.scrollPage goal) (Browser.scrollPage goal)
  screenshot : ∀ l full, Agree R (Browser.screenshot l full) (Browser.screenshot l full)
  pageText : Agree R Browser.pageText Browser.pageText
  awaitResponse : ∀ m timeout, Agree R (Browser.awaitResponse m timeout) (Browser.awaitResponse m timeout)
  route : ∀ rule, Agree R (Browser.route rule) (Browser.route rule)
  unroute : ∀ source, Agree R (Browser.unroute source) (Browser.unroute source)

namespace Browser.Alike
variable {R : σ → τ → Prop} (alike : Alike R)
include alike

/-! ## Targets and scopes -/

theorem countMatches (l : Locator) : Agree R (countMatches l) (countMatches l) := (alike.count l).tryCatch fun _ => .pure _

theorem ensureFound (l : Locator) (stage : Stage) (raw : String) (hints : HintView) :
    Agree R (ensureFound l stage raw hints) (ensureFound l stage raw hints) :=
  (alike.countMatches l).bind fun _ => .ite (.throw _) (.pure _)

theorem locate (scope : Locator) (raw : String) (hints : HintView) :
    Agree R (locate scope raw hints) (locate scope raw hints) := by
  refine .bind (fun _ _ related => ⟨rfl, related⟩) fun l => ?_
  exact (alike.ensureFound l .target raw hints).bind fun _ => .pure l

theorem locateAll (scope : Locator) (raw : String) (hints : HintView) (stage : Stage) :
    Agree R (locateAll scope raw hints stage) (locateAll scope raw hints stage) :=
  (alike.ensureFound _ stage raw hints).bind fun _ => .pure _

theorem narrow (scope : Locator) (stage : Stage) (selector : Option String) (hints : HintView) :
    Agree R (narrow scope stage selector hints) (narrow scope stage selector hints) := by
  cases selector with
  | none => exact .pure _
  | some s => exact (alike.ensureFound _ stage s hints).bind fun _ => .pure _

theorem climbFrom (scope : Locator) (hints : HintView) : Agree R (climbFrom scope hints) (climbFrom scope hints) := by
  unfold PageSpec.climbFrom
  cases hints.parent with
  | none => exact .pure _
  | some parent =>
    refine (alike.ensureFound _ _ _ _).bind fun _ => ?_
    cases hints.climb with
    | ok levels => exact .pure _
    | error e => exact .throw e

theorem buildScope (hints : HintView) (base : Locator) : Agree R (buildScope hints base) (buildScope hints base) :=
  (alike.narrow _ _ _ _).bind fun _ => (alike.climbFrom _ _).bind fun _ => alike.narrow _ _ _ _

/-! ## Expectations -/

theorem probe (e : Expectation) : Agree R e.probe e.probe := by
  cases e with
  | text l t | textPart l t => exact (alike.textContent l).bind fun _ => .pure _
  | visible l => exact (alike.isVisible l).bind fun _ => .pure _
  | value l t | valuePart l t => exact (alike.inputValue l).bind fun _ => .pure _
  | url t | urlPart t => exact alike.currentUrl.bind fun _ => .pure _
  | pageText t => exact alike.pageText.bind fun _ => .pure _

theorem await (patience : Patience) (e : Expectation) : Agree R (await patience e) (await patience e) :=
  pollFrom_agrees patience _ (fun _ => alike.probe e) 0 patience.pauses

end Browser.Alike
end PageSpec
