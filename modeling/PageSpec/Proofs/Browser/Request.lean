import PageSpec.Proofs.Browser.Touch
/-!
What is asked of a session, as data. A recorder is a record that a session keeps of what it is asked, one
request after another; any session can be made to keep one.
-/
namespace PageSpec.Browser

/-- A capability, with what it is given. -/
inductive Request where
  | start
  | navigate (url : String)
  | currentUrl
  | count (l : Locator)
  | click (l : Locator) (force : Bool)
  | hover (l : Locator)
  | fill (l : Locator) (text : String)
  | typeText (l : Locator) (text : String) (delay : Nat)
  | press (l : Option Locator) (chord : String)
  | setChecked (l : Locator) (checked : Bool)
  | selectOptions (l : Locator) (choice : Choice)
  | attachFiles (l : Locator) (paths : List String)
  | textContent (l : Locator)
  | inputValue (l : Locator)
  | attributeOf (l : Locator) (name : String)
  | tagName (l : Locator)
  | fileCount (l : Locator)
  | isVisible (l : Locator)
  | scrollIntoView (l : Locator)
  | scrollPage (goal : PageScroll)
  | screenshot (l : Option Locator) (fullPage : Bool)
  | pageText
  | awaitResponse (m : Network.Matcher) (timeout : Nat)
  | route (rule : Network.Rule)
  | unroute (source : String)
  | close

/-- A request between the start of a session and its end. -/
def Request.inner : Request → Bool
  | .start | .close => false
  | _ => true

variable {σ : Type} [Browser σ]

/-- The session after a request, which may have failed. -/
def ask : Request → σ → σ
  | .start, p => ((start : Act σ Unit) p).2
  | .navigate url, p => ((navigate url : Act σ Unit) p).2
  | .currentUrl, p => ((currentUrl : Act σ String) p).2
  | .count l, p => ((count l : Act σ Nat) p).2
  | .click l force, p => ((click l force : Act σ Unit) p).2
  | .hover l, p => ((hover l : Act σ Unit) p).2
  | .fill l text, p => ((fill l text : Act σ Unit) p).2
  | .typeText l text delay, p => ((typeText l text delay : Act σ Unit) p).2
  | .press l chord, p => ((press l chord : Act σ Unit) p).2
  | .setChecked l checked, p => ((setChecked l checked : Act σ Unit) p).2
  | .selectOptions l choice, p => ((selectOptions l choice : Act σ (List String)) p).2
  | .attachFiles l paths, p => ((attachFiles l paths : Act σ Unit) p).2
  | .textContent l, p => ((textContent l : Act σ (Option String)) p).2
  | .inputValue l, p => ((inputValue l : Act σ String) p).2
  | .attributeOf l name, p => ((attributeOf l name : Act σ (Option String)) p).2
  | .tagName l, p => ((tagName l : Act σ String) p).2
  | .fileCount l, p => ((fileCount l : Act σ Nat) p).2
  | .isVisible l, p => ((isVisible l : Act σ Bool) p).2
  | .scrollIntoView l, p => ((scrollIntoView l : Act σ Unit) p).2
  | .scrollPage goal, p => ((scrollPage goal : Act σ Unit) p).2
  | .screenshot l fullPage, p => ((screenshot l fullPage : Act σ (List UInt8)) p).2
  | .pageText, p => ((pageText : Act σ String) p).2
  | .awaitResponse m timeout, p => ((awaitResponse m timeout : Act σ Network.Response) p).2
  | .route rule, p => ((route rule : Act σ Unit) p).2
  | .unroute source, p => ((unroute source : Act σ Unit) p).2
  | .close, p => ((close : Act σ Unit) p).2

theorem touch_ask (q : Request) (p : σ) : Touch p (ask q p) := by
  cases q <;> constructor

/-- A drift along which every request between start and end moves a session. -/
def Carries (D : Drift σ) : Prop := ∀ q : Request, q.inner = true → ∀ p, D.Moves p (ask q p)

theorem carries_use : Carries (use (σ := σ)) := fun q _ p => .touch (touch_ask q p)

theorem Carries.reads {D : Drift σ} (carries : Carries D) : Reads (.free D) where
  count l := Bound.holds_free.mpr (carries (.count l) rfl)
  textContent l := Bound.holds_free.mpr (carries (.textContent l) rfl)
  inputValue l := Bound.holds_free.mpr (carries (.inputValue l) rfl)
  attributeOf l name := Bound.holds_free.mpr (carries (.attributeOf l name) rfl)
  tagName l := Bound.holds_free.mpr (carries (.tagName l) rfl)
  fileCount l := Bound.holds_free.mpr (carries (.fileCount l) rfl)
  isVisible l := Bound.holds_free.mpr (carries (.isVisible l) rfl)
  currentUrl := Bound.holds_free.mpr (carries .currentUrl rfl)
  pageText := Bound.holds_free.mpr (carries .pageText rfl)
  fails _ := trivial

/-! ## Recorders -/

/-- A record that a session keeps of what it is asked. -/
structure Recorder (σ κ : Type) [Browser σ] where
  /-- What has been recorded, oldest first. -/
  log : σ → List κ
  /-- What a request adds, whether or not it fails. -/
  calls : Request → List κ
  records : ∀ q p, log (ask q p) = log p ++ calls q
  opened : κ
  closed : κ
  opens : calls .start = [opened]
  closes : calls .close = [closed]
  /-- Start and end are not taken for each other or for anything in between. -/
  differ : opened ≠ closed
  apart : ∀ q : Request, q.inner = true → opened ∉ calls q ∧ closed ∉ calls q

namespace Recorder
variable {κ : Type} (R : Recorder σ κ)

theorem log_start (p : σ) : R.log ((start : Act σ Unit) p).2 = R.log p ++ [R.opened] := by
  rw [← R.opens]
  exact R.records .start p

theorem log_close (p : σ) : R.log ((close : Act σ Unit) p).2 = R.log p ++ [R.closed] := by
  rw [← R.closes]
  exact R.records .close p

/-- What is recorded between two states of a session. -/
def between (p q : σ) : List κ := (R.log q).drop (R.log p).length

/-- Neither a start nor an end. -/
def Inner (calls : List κ) : Prop := R.opened ∉ calls ∧ R.closed ∉ calls

theorem inner_nil : R.Inner [] := ⟨List.not_mem_nil, List.not_mem_nil⟩

variable {R}

theorem Inner.append {xs ys : List κ} (first : R.Inner xs) (rest : R.Inner ys) : R.Inner (xs ++ ys) :=
  ⟨fun member => (List.mem_append.mp member).elim first.1 rest.1,
    fun member => (List.mem_append.mp member).elim first.2 rest.2⟩

variable (R)

/-- The drift of sessions that go on recording and are neither started nor closed. -/
def within : Drift σ where
  Moves p q := R.log q = R.log p ++ R.between p q ∧ R.Inner (R.between p q)
  refl p := by simp [between, R.inner_nil]
  trans := by
    rintro p q t ⟨first, inner⟩ ⟨rest, inner'⟩
    have joined : R.between p t = R.between p q ++ R.between q t := by
      rw [between, rest, first]
      simp
    rw [joined]
    exact ⟨by rw [rest, first, List.append_assoc], inner.append inner'⟩

theorem carries_within : Carries R.within := by
  intro q inside p
  have added : R.between p (ask q p) = R.calls q := by simp [between, R.records]
  refine ⟨?_, ?_⟩
  · rw [added, R.records]
  · rw [added]
    exact R.apart q inside

end Recorder

/-! ## Recording anything -/

/-- A session along with all that it was asked. -/
structure Logged (σ : Type) where
  session : σ
  requests : List Request

namespace Logged

/-- Notes a request and passes it on. -/
def pass {α : Type} (q : Request) (a : Act σ α) : Act (Logged σ) α := fun p =>
  let (x, session) := a p.session
  (x, ⟨session, p.requests ++ [q]⟩)

instance : Browser (Logged σ) where
  start := pass .start start
  navigate url := pass (.navigate url) (navigate url)
  currentUrl := pass .currentUrl currentUrl
  count l := pass (.count l) (count l)
  click l force := pass (.click l force) (click l force)
  hover l := pass (.hover l) (hover l)
  fill l text := pass (.fill l text) (fill l text)
  typeText l text delay := pass (.typeText l text delay) (typeText l text delay)
  press l chord := pass (.press l chord) (press l chord)
  setChecked l checked := pass (.setChecked l checked) (setChecked l checked)
  selectOptions l choice := pass (.selectOptions l choice) (selectOptions l choice)
  attachFiles l paths := pass (.attachFiles l paths) (attachFiles l paths)
  textContent l := pass (.textContent l) (textContent l)
  inputValue l := pass (.inputValue l) (inputValue l)
  attributeOf l name := pass (.attributeOf l name) (attributeOf l name)
  tagName l := pass (.tagName l) (tagName l)
  fileCount l := pass (.fileCount l) (fileCount l)
  isVisible l := pass (.isVisible l) (isVisible l)
  scrollIntoView l := pass (.scrollIntoView l) (scrollIntoView l)
  scrollPage goal := pass (.scrollPage goal) (scrollPage goal)
  screenshot l fullPage := pass (.screenshot l fullPage) (screenshot l fullPage)
  pageText := pass .pageText pageText
  awaitResponse m timeout := pass (.awaitResponse m timeout) (awaitResponse m timeout)
  route rule := pass (.route rule) (route rule)
  unroute source := pass (.unroute source) (unroute source)
  close := pass .close close

/-- Asking a session that keeps a log is asking the session. -/
theorem ask_session (q : Request) (p : Logged σ) : (ask q p).session = ask q p.session := by
  cases q <;> rfl

theorem ask_requests (q : Request) (p : Logged σ) : (ask q p).requests = p.requests ++ [q] := by
  cases q <;> rfl

/-- Everything is recorded. -/
def recorder : Recorder (Logged σ) Request where
  log p := p.requests
  calls q := [q]
  records := ask_requests
  opened := .start
  closed := .close
  opens := rfl
  closes := rfl
  differ := nofun
  apart q inside := by cases q <;> simp_all [Request.inner]

end Logged
end PageSpec.Browser
