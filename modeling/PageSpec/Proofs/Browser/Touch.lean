import Mathlib.Logic.Relation
import PageSpec.Browser.Expect
import PageSpec.Browser.Locate
import PageSpec.Proofs.Malformed
/-!
What happens to a session while it is used: it is touched by one capability after another. Locating
targets, building scopes and awaiting expectations touch a session in no other way.
-/
namespace PageSpec
namespace Browser

/-- One capability is used on a session; it may fail. -/
inductive Touch {σ : Type} [Browser σ] : σ → σ → Prop
  | start (p : σ) : Touch p ((Browser.start : Act σ Unit) p).2
  | navigate (url : String) (p : σ) : Touch p ((Browser.navigate url : Act σ Unit) p).2
  | currentUrl (p : σ) : Touch p ((Browser.currentUrl : Act σ String) p).2
  | count (l : Locator) (p : σ) : Touch p ((Browser.count l : Act σ Nat) p).2
  | click (l : Locator) (force : Bool) (p : σ) : Touch p ((Browser.click l force : Act σ Unit) p).2
  | hover (l : Locator) (p : σ) : Touch p ((Browser.hover l : Act σ Unit) p).2
  | fill (l : Locator) (text : String) (p : σ) : Touch p ((Browser.fill l text : Act σ Unit) p).2
  | typeText (l : Locator) (text : String) (delay : Nat) (p : σ) :
    Touch p ((Browser.typeText l text delay : Act σ Unit) p).2
  | press (l : Option Locator) (chord : String) (p : σ) :
    Touch p ((Browser.press l chord : Act σ Unit) p).2
  | setChecked (l : Locator) (checked : Bool) (p : σ) :
    Touch p ((Browser.setChecked l checked : Act σ Unit) p).2
  | selectOptions (l : Locator) (choice : Choice) (p : σ) :
    Touch p ((Browser.selectOptions l choice : Act σ (List String)) p).2
  | attachFiles (l : Locator) (paths : List String) (p : σ) :
    Touch p ((Browser.attachFiles l paths : Act σ Unit) p).2
  | textContent (l : Locator) (p : σ) : Touch p ((Browser.textContent l : Act σ (Option String)) p).2
  | inputValue (l : Locator) (p : σ) : Touch p ((Browser.inputValue l : Act σ String) p).2
  | attributeOf (l : Locator) (name : String) (p : σ) :
    Touch p ((Browser.attributeOf l name : Act σ (Option String)) p).2
  | tagName (l : Locator) (p : σ) : Touch p ((Browser.tagName l : Act σ String) p).2
  | fileCount (l : Locator) (p : σ) : Touch p ((Browser.fileCount l : Act σ Nat) p).2
  | isVisible (l : Locator) (p : σ) : Touch p ((Browser.isVisible l : Act σ Bool) p).2
  | scrollIntoView (l : Locator) (p : σ) : Touch p ((Browser.scrollIntoView l : Act σ Unit) p).2
  | scrollPage (goal : PageScroll) (p : σ) : Touch p ((Browser.scrollPage goal : Act σ Unit) p).2
  | screenshot (l : Option Locator) (fullPage : Bool) (p : σ) :
    Touch p ((Browser.screenshot l fullPage : Act σ (List UInt8)) p).2
  | pageText (p : σ) : Touch p ((Browser.pageText : Act σ String) p).2
  | awaitResponse (m : Network.Matcher) (timeout : Nat) (p : σ) :
    Touch p ((Browser.awaitResponse m timeout : Act σ Network.Response) p).2
  | route (rule : Network.Rule) (p : σ) : Touch p ((Browser.route rule : Act σ Unit) p).2
  | unroute (source : String) (p : σ) : Touch p ((Browser.unroute source : Act σ Unit) p).2
  | close (p : σ) : Touch p ((Browser.close : Act σ Unit) p).2

variable {σ : Type} [Browser σ]

/-- Any number of capabilities are used, one after another. -/
def Reaches : σ → σ → Prop := Relation.ReflTransGen Touch

/-- The drift of sessions that are used. -/
def use : Drift σ := ⟨Reaches, fun _ => .refl, .trans⟩

theorem Reaches.touch {p q : σ} (touched : Touch p q) : Reaches p q := .single touched

/-- What every capability keeps is kept however long a session is used. -/
theorem Reaches.moves {D : Drift σ} (step : ∀ {p q : σ}, Touch p q → D.Moves p q) {p q : σ}
    (reached : Reaches p q) : D.Moves p q := by
  induction reached with
  | refl => exact D.refl p
  | tail _ touched ih => exact D.trans ih (step touched)

/-- A bound that the capabilities which only look at the page are within, and every failure but those
over the form of an action. -/
structure Reads (B : Bound σ) : Prop where
  count : ∀ l, B.Holds (Browser.count l)
  textContent : ∀ l, B.Holds (Browser.textContent l)
  inputValue : ∀ l, B.Holds (Browser.inputValue l)
  attributeOf : ∀ l name, B.Holds (Browser.attributeOf l name)
  tagName : ∀ l, B.Holds (Browser.tagName l)
  fileCount : ∀ l, B.Holds (Browser.fileCount l)
  isVisible : ∀ l, B.Holds (Browser.isVisible l)
  currentUrl : B.Holds Browser.currentUrl
  pageText : B.Holds Browser.pageText
  fails : ∀ {e : Failure}, e.isMalformed = false → B.May e

/-- Where anything goes, so does looking. -/
theorem reads_any : Reads (.free (.any (s := σ))) := by
  constructor
  all_goals intros
  all_goals first
    | exact trivial
    | exact Bound.holds_free.mpr fun _ => trivial

end Browser

/-! ## Looking -/

/-- Where counting leaves no trace, it comes to a number or to none. -/
theorem countMatches_total {σ : Type} [Browser σ] (kept : ∀ l, Drift.still.Allows (Browser.count l : Act σ Nat))
    (l : Locator) (p : σ) : ∃ n, countMatches l p = (.ok n, p) := by
  unfold countMatches
  rw [Act.tryCatch_apply, (kept l).still_eq p]
  cases (Browser.count l p).1 with
  | error e => exact ⟨0, rfl⟩
  | ok n => exact ⟨n, rfl⟩

/-- Only what was seen last goes into a failure; the failures of looks on the way are caught. -/
theorem pollFrom_holds {σ : Type} {B : Bound σ} (p : Patience) (probe : Nat → Act σ Sight)
    (unmet : String → Failure) (allowed : ∀ t, B.Allows (probe t)) (may : ∀ seen, B.May (unmet seen))
    (k n : Nat) : B.Holds (pollFrom p probe unmet k n) := by
  have looked : ∀ t, B.Holds (look probe t) := fun t => .tryCatch (allowed t) fun _ => .pure _
  induction n generalizing k with
  | zero =>
    rw [pollFrom]
    refine .bind (looked _) fun sight => ?_
    cases sight with
    | met => exact .pure _
    | unmet seen => exact .throw (may seen)
  | succ n ih =>
    rw [pollFrom]
    refine .bind (looked _) fun sight => ?_
    cases sight with
    | met => exact .pure _
    | unmet seen => exact ih (k + 1)

/-- What an outcome of a look shows. -/
def shown : Except Failure Sight → Sight
  | .ok sight => sight
  | .error e => .unmet e.message

theorem shown_eq_met {outcome : Except Failure Sight} : shown outcome = .met ↔ outcome = .ok .met := by
  cases outcome with
  | ok sight => rw [shown, Except.ok.injEq]
  | error e => exact ⟨nofun, nofun⟩

theorem look_apply {σ : Type} (probe : Nat → Act σ Sight) (t : Nat) (x : σ) :
    look probe t x = (.ok (shown (probe t x).1), (probe t x).2) := by
  unfold look
  rw [Act.tryCatch_apply]
  rcases probe t x with ⟨e | sight, y⟩
  · rfl
  · rfl

/-- What changes nothing is not seen any better for looking again. -/
theorem pollFrom_ok_iff {σ : Type} (p : Patience) {a : Act σ Sight} (unmet : String → Failure)
    (kept : Drift.still.Allows a) (k n : Nat) (x : σ) :
    (pollFrom p (fun _ => a) unmet k n x).1 = .ok () ↔ (a x).1 = .ok .met := by
  have looked (t : Nat) : look (fun _ => a) t x = (.ok (shown (a x).1), x) := by
    rw [look_apply]
    exact Prod.ext rfl (kept x)
  rw [← shown_eq_met]
  induction n generalizing k with
  | zero =>
    rw [pollFrom, Act.bind_ok (looked _)]
    cases shown (a x).1 <;> simp [Act.pure_apply, Act.throw_apply]
  | succ n ih =>
    rw [pollFrom, Act.bind_ok (looked _)]
    cases sight : shown (a x).1 with
    | met => simp [Act.pure_apply]
    | unmet seen =>
      rw [sight] at ih
      exact ih (k + 1)

section
variable {σ : Type} [Browser σ] {B : Bound σ} (reads : Browser.Reads B)
include reads

/-! ## Targets and scopes -/

theorem countMatches_reads (l : Locator) : B.Holds (countMatches l) :=
  .tryCatch (reads.count l).1 fun _ => .pure _

theorem ensureFound_reads (l : Locator) (stage : Stage) (raw : String) (hints : HintView) :
    B.Holds (ensureFound l stage raw hints) :=
  .bind (countMatches_reads reads l) fun _ => .ite (.throw (reads.fails rfl)) (.pure _)

theorem locate_reads (scope : Locator) (raw : String) (hints : HintView) :
    B.Holds (locate scope raw hints) := by
  have picked : Formed (scope.oneOf raw hints) := hints.pick_formed.bind fun _ => .ok _
  refine .bind ⟨fun p => B.refl p, fun _ e failed => reads.fails (picked e failed)⟩ fun l => ?_
  exact .bind (ensureFound_reads reads l .target raw hints) fun _ => .pure l

theorem locateAll_reads (scope : Locator) (raw : String) (hints : HintView) (stage : Stage) :
    B.Holds (locateAll scope raw hints stage) :=
  .bind (ensureFound_reads reads _ stage raw hints) fun _ => .pure _

theorem narrow_reads (scope : Locator) (stage : Stage) (selector : Option String)
    (hints : HintView) : B.Holds (narrow scope stage selector hints) := by
  cases selector with
  | none => exact .pure _
  | some s => exact .bind (ensureFound_reads reads _ stage s hints) fun _ => .pure _

theorem climbFrom_reads (scope : Locator) (hints : HintView) : B.Holds (climbFrom scope hints) := by
  unfold climbFrom
  split
  · exact .pure _
  · refine .bind (ensureFound_reads reads _ _ _ _) fun _ => ?_
    split
    · exact .pure _
    · rename_i e failed
      exact .throw (reads.fails (hints.climb_formed e failed))

theorem buildScope_reads (hints : HintView) (base : Locator) : B.Holds (buildScope hints base) :=
  .bind (narrow_reads reads _ _ _ _) fun _ => .bind (climbFrom_reads reads _ _) fun _ =>
    narrow_reads reads _ _ _ _

/-! ## Expectations -/

theorem probe_reads (e : Expectation) : B.Holds e.probe := by
  cases e with
  | text l t | textPart l t => exact .bind (reads.textContent l) fun _ => .pure _
  | visible l => exact .bind (reads.isVisible l) fun _ => .pure _
  | value l t | valuePart l t => exact .bind (reads.inputValue l) fun _ => .pure _
  | url t | urlPart t => exact .bind reads.currentUrl fun _ => .pure _
  | pageText t => exact .bind reads.pageText fun _ => .pure _

theorem await_reads (patience : Patience) (e : Expectation) : B.Holds (await patience e) :=
  pollFrom_holds patience (fun _ => e.probe) _ (fun _ => (probe_reads reads e).1)
    (fun _ => reads.fails rfl) 0 patience.pauses

end
end PageSpec
