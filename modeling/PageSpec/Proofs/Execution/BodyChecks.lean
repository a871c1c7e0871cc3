import PageSpec.Proofs.Execution.OwnText
import PageSpec.Proofs.Page.Responses
/-!
The step that waits for a response. The session picks the first response whose URL and status fit, and the step
checks the body of that one. The whole condition checks it as well, but not in the same way: a body that was not
read contains nothing for the condition, and the empty text for the step.
-/
namespace PageSpec
open Network (Response Matcher)

/-! ## Conditions on bodies -/

/-- The empty text contains no other. -/
theorem Text.empty_has_iff {needle : String} : Text.has "" needle = true ↔ needle = "" := by
  unfold Text.has Text.occurs
  simp

/-- What the step asks of the body of a response; no body counts as an empty one. -/
def Network.Matcher.BodyPasses (m : Matcher) (x : Response) : Prop :=
  ∀ needle, m.bodyPart = some needle → Text.has (x.body.getD "") needle = true

theorem Network.Matcher.not_admits_bodiless {m : Matcher} {x : Response} {needle : String}
    (asked : m.bodyPart = some needle) (bodiless : x.body = none) : m.admits x = false := by
  unfold admits
  rw [asked, bodiless]
  exact Bool.and_false _

/-- On a response whose URL and status fit, the step and the whole condition ask the same of a body that is there.
Where there is none, the step still finds the empty text. -/
theorem Network.Matcher.bodyPasses_iff {m : Matcher} {x : Response} (fits : m.fits x = true) :
    m.BodyPasses x ↔ m.admits x = true ∨ (m.bodyPart = some "" ∧ x.body = none) := by
  unfold Matcher.fits at fits
  unfold BodyPasses admits
  rw [fits, Bool.true_and]
  cases m.bodyPart with
  | none => simp
  | some needle => cases x.body with
    | none => simp [Text.empty_has_iff]
    | some body => simp

theorem ResponseWait.bodyPart_matcher {w : ResponseWait} {m : Matcher} (valid : w.matcher = .ok m) :
    m.bodyPart = w.bodyContains := by
  unfold matcher at valid
  split at valid
  · cases valid
  · cases valid
    rfl

namespace Exec

/-! ## How the step ends -/

/-- What becomes of a wait for a response and the check of its body. -/
inductive BodyChecked (m : Matcher) (timeout : Nat) (queue : List Response) : Except Failure Unit → Prop
  | passed {x : Response} (first : queue.find? m.fits = some x)
    (there : m.BodyPasses x) : BodyChecked m timeout queue (.ok ())
  | lacking {x : Response} {needle : String} (first : queue.find? m.fits = some x)
    (asked : m.bodyPart = some needle) (lacks : Text.has (x.body.getD "") needle = false) :
    BodyChecked m timeout queue (.error (.assertion (.bodyWithout x.url needle)))
  | late (absent : queue.find? m.fits = none) : BodyChecked m timeout queue (.error (.timeout timeout m))

variable {c : Setting} {w : ResponseWait} {m : Matcher}

/-- How a wait for a response ends on a run. -/
theorem onSession_awaiting {timeout : Nat} {r : Run Page} {answer : Except Failure Response}
    (ends : (Page.awaitResponse m timeout r.session).1 = answer) :
    onSession (Browser.awaitResponse m timeout) r =
      (answer, { r with session := (Page.awaitResponse m timeout r.session).2 }) := Prod.ext ends rfl

theorem waitResponse_checked (valid : w.matcher = .ok m) (r : Run Page) :
    BodyChecked m (w.timeout.getD c.settings.responseTimeout) r.session.responses (waitResponse c w r).1 := by
  have part := w.bodyPart_matcher valid
  have made : lift w.matcher r = (.ok m, r) := congrArg (fun made => (made, r)) valid
  unfold waitResponse
  rw [Act.bind_ok made]
  have waited := Page.awaitResponse_awaited m (w.timeout.getD c.settings.responseTimeout) r.session
  cases there : r.session.responses.findIdx? m.fits with
  | none =>
    obtain ⟨answer, -⟩ := waited.of_missed there
    rw [Act.bind_error (onSession_awaiting answer)]
    refine .late ?_
    rw [List.find?_eq_bind_findIdx?_getElem?, there]
    rfl
  | some k =>
    obtain ⟨x, at_, answer, -⟩ := waited.of_found there
    have first : r.session.responses.find? m.fits = some x := by
      rw [List.find?_eq_bind_findIdx?_getElem?, there]
      exact at_
    rw [Act.bind_ok (onSession_awaiting answer)]
    cases asked : w.bodyContains with
    | none =>
      refine .passed first fun needle given => ?_
      cases given.symm.trans (part.trans asked)
    | some needle =>
      have given := part.trans asked
      rw [forSome_some]
      cases lies : Text.has (x.body.getD "") needle with
      | true =>
        refine .passed first fun needle' given' => ?_
        cases given.symm.trans given'
        exact lies
      | false => exact .lacking first given lies

/-- The step succeeds exactly if there is a first response whose URL and status fit and its body passes. -/
theorem waitResponse_ok_iff (valid : w.matcher = .ok m) (r : Run Page) : (waitResponse c w r).1 = .ok () ↔
    ∃ x, r.session.responses.find? m.fits = some x ∧ m.BodyPasses x := by
  have ended := waitResponse_checked (c := c) valid r
  constructor
  · intro ok
    rw [ok] at ended
    cases ended with
    | passed first there => exact ⟨_, first, there⟩
  · rintro ⟨x, first, there⟩
    generalize (waitResponse c w r).1 = answer at ended ⊢
    cases ended with
    | passed => rfl
    | lacking first' asked lacks =>
      cases first.symm.trans first'
      cases lacks.symm.trans (there _ asked)
    | late absent => cases absent.symm.trans first

/-! ## Agreement -/

/-- The step succeeds exactly if there is a first response whose URL and status fit and it meets the whole
condition. -/
def ChecksAgree (c : Setting) (w : ResponseWait) (m : Matcher) (r : Run Page) : Prop :=
  (waitResponse c w r).1 = .ok () ↔ ∃ x, r.session.responses.find? m.fits = some x ∧ m.admits x = true

/-- The empty text is asked for in the body of a response that has none. -/
def NothingInNothing (m : Matcher) (queue : List Response) : Prop :=
  m.bodyPart = some "" ∧ ∃ x, queue.find? m.fits = some x ∧ x.body = none

/-- The body checks of a step and of the condition that is made for it agree on a queue of responses, except that
only the step finds the empty text in a body that is not there. -/
theorem checksAgree_iff (c : Setting) (valid : w.matcher = .ok m) (r : Run Page) :
    ChecksAgree c w m r ↔ ¬ NothingInNothing m r.session.responses := by
  unfold ChecksAgree
  rw [waitResponse_ok_iff valid r]
  constructor
  · rintro agree ⟨asked, x, first, bodiless⟩
    have passes : m.BodyPasses x := (Matcher.bodyPasses_iff (List.find?_some first)).mpr (.inr ⟨asked, bodiless⟩)
    obtain ⟨x', first', met⟩ := agree.mp ⟨x, first, passes⟩
    cases first.symm.trans first'
    exact absurd met (Bool.eq_false_iff.mp (Matcher.not_admits_bodiless asked bodiless))
  · intro sound
    refine exists_congr fun x => and_congr_right fun first => ?_
    rw [Matcher.bodyPasses_iff (List.find?_some first)]
    exact or_iff_left fun ⟨asked, bodiless⟩ => sound ⟨asked, x, first, bodiless⟩

/-- A run on an empty page to which some responses have come. -/
def runWith (queue : List Response) : Run Page :=
  Run.fresh { Page.ofDocument [] with responses := queue } default .empty

def userSaved : Response := ⟨"https://x.test/users/1", 200, some "saved: ok"⟩

/-- A response without a body. -/
def noContent : Response := ⟨"https://x.test/api", 204, none⟩

/-- A wait for a user to be saved. -/
def savingWait : ResponseWait := ⟨some "**/users/*", some 200, some "ok", none⟩

def savingMatcher : Matcher := { Matcher.glob "**/users/*" with statuses := [200], bodyPart := some "ok" }

/-- A user is saved after another response has come, and both checks find it. -/
theorem savingWait_agrees : savingWait.matcher = .ok savingMatcher ∧
    ChecksAgree bareSetting savingWait savingMatcher (runWith [noContent, userSaved]) ∧
    (waitResponse bareSetting savingWait (runWith [noContent, userSaved])).1 = .ok () := by
  have valid : savingWait.matcher = .ok savingMatcher := rfl
  have agree : ChecksAgree bareSetting savingWait savingMatcher (runWith [noContent, userSaved]) := by
    refine (checksAgree_iff bareSetting valid _).mpr ?_
    rintro ⟨asked, -⟩
    exact absurd asked (by decide)
  have first : (runWith [noContent, userSaved]).session.responses.find? savingMatcher.fits = some userSaved := by
    decide +kernel
  exact ⟨valid, agree, agree.mpr ⟨userSaved, first, by decide +kernel⟩⟩

/-- A wait for any response, with the empty text asked for in its body. -/
def idleWait : ResponseWait := ⟨some "**", none, some "", none⟩

def idleMatcher : Matcher := { Matcher.glob "**" with bodyPart := some "" }

/-- The step is content with a response without a body, which does not meet the condition. -/
theorem idleWait_disagrees : idleWait.matcher = .ok idleMatcher ∧
    (waitResponse bareSetting idleWait (runWith [noContent])).1 = .ok () ∧
    ¬ ChecksAgree bareSetting idleWait idleMatcher (runWith [noContent]) := by
  have passed : (waitResponse bareSetting idleWait (runWith [noContent])).1 = .ok () := rfl
  refine ⟨rfl, passed, fun agree => ?_⟩
  obtain ⟨x, first, met⟩ := agree.mp passed
  have only : (runWith [noContent]).session.responses.find? idleMatcher.fits = some noContent := rfl
  cases only.symm.trans first
  exact absurd met (by decide +kernel)

end Exec
end PageSpec
