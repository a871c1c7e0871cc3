import PageSpec.Proofs.Browser.Request
import PageSpec.Proofs.Execution.Call
import PageSpec.Proofs.Execution.Within
/-!
Actions and their session. Whatever an action does, it changes the session through its capabilities
alone, so that what every capability keeps is kept by actions of any nesting. No action starts a session
or ends it.
-/
namespace PageSpec

/-- A drift of sessions, as one of runs: nothing is said about the rest of a run. -/
def Drift.onSession {σ : Type} (D : Drift σ) : Drift (Run σ) :=
  ⟨fun r q => D.Moves r.session q.session, fun r => D.refl r.session, D.trans⟩

namespace Exec
variable {σ : Type}
open Browser (Carries use carries_use)

theorem onSession_moves {D : Drift σ} {α : Type} {a : Act σ α} (moves : ∀ p, D.Moves p (a p).2) :
    (Bound.free D.onSession).Holds (onSession a) :=
  Bound.holds_free.mpr fun r => moves r.session

theorem store_moves (D : Drift σ) (key : String) (v : Json) :
    (Bound.free D.onSession).Holds (store key v) :=
  Bound.holds_free.mpr fun r => D.onSession.refl r

/-! ## Along a drift -/

variable [Browser σ]

section
variable {D : Drift σ} (carries : Carries D)
include carries

theorem roomy_of_carries : Roomy (.free D) (.free D.onSession) where
  reads := carries.reads
  session _ _ moved := moved
  rest r _ _ _ := D.onSession.refl r
  may _ := trivial

theorem acts_of_carries : Acts (.free D.onSession) where
  click l force := onSession_moves (carries (.click l force) rfl)
  hover l := onSession_moves (carries (.hover l) rfl)
  fill l text := onSession_moves (carries (.fill l text) rfl)
  typeText l text delay := onSession_moves (carries (.typeText l text delay) rfl)
  press l chord := onSession_moves (carries (.press l chord) rfl)
  setChecked l checked := onSession_moves (carries (.setChecked l checked) rfl)
  selectOptions l choice := onSession_moves (carries (.selectOptions l choice) rfl)
  attachFiles l paths := onSession_moves (carries (.attachFiles l paths) rfl)
  scrollIntoView l := onSession_moves (carries (.scrollIntoView l) rfl)
  scrollPage goal := onSession_moves (carries (.scrollPage goal) rfl)
  screenshot l full := onSession_moves (carries (.screenshot l full) rfl)
  awaitResponse m timeout := onSession_moves (carries (.awaitResponse m timeout) rfl)
  typed v := store_moves D typedKey v
  got v := store_moves D gotKey v

theorem reading_carried (c : Setting) (raw : Json) : (Bound.free D.onSession).Holds (reading c raw) := by
  refine reading_holds (fun fs _ => ?_) (fun fs run _ _ => ?_) (fun _ => trivial) fun _ _ _ => trivial
  · refine routeStep_holds (fun s => ?_) fun _ _ _ _ _ => trivial
    exact route_holds (fun rule => onSession_moves (carries (.route rule) rfl))
      (fun source => onSession_moves (carries (.unroute source) rfl)) trivial s
  · refine Bound.holds_free.mpr fun r => ?_
    -- A function is called beside the session.
    have kept := (runFunction_called (c := c) run (Fields.get? fs "as") r).session
    exact (congrArg (D.Moves r.session) kept).mpr (D.refl r.session)

theorem actionUpTo_carried (c : Setting) : ∀ (n : Nat) (base : Locator) (raw : Json),
    D.onSession.Allows (actionUpTo c n base raw)
  | 0, _, _ => .pure _
  | n + 1, base, raw => by
    refine (actionWith_holds (roomy_of_carries carries) (acts_of_carries carries)
      (reading_carried carries c raw) ?_ base).1
    exact fun _ _ _ _ _ _ x _ l => Bound.holds_free.mpr (actionUpTo_carried c n l x)

/-- What carries a session from request to request carries it through actions of any nesting. -/
theorem action_carried (c : Setting) (base : Locator) (raw : Json) :
    D.onSession.Allows (action c base raw) := actionUpTo_carried carries c _ base raw

end

/-! ## Use -/

/-- The drift of runs whose session is used. -/
abbrev useRun : Drift (Run σ) := (use (σ := σ)).onSession

theorem roomy_use : Roomy (.free use) (.free (useRun (σ := σ))) := roomy_of_carries carries_use

theorem store_uses (key : String) (v : Json) : (Bound.free (useRun (σ := σ))).Holds (store key v) :=
  store_moves use key v

theorem operations_use {c : Setting} {sub : Locator → Json → Exec σ Unit}
    (used : ∀ l v, useRun.Allows (sub l v)) (aim : Aim) (a : Action) :
    ∀ o ∈ operations c sub aim a, useRun.Allows o := fun o member =>
  Bound.holds_free.mp (operations_hold roomy_use (acts_of_carries carries_use)
    (fun _ _ x _ l => Bound.holds_free.mpr (used l x)) aim o member)

theorem reading_uses (c : Setting) (raw : Json) : (Bound.free (useRun (σ := σ))).Holds (reading c raw) :=
  reading_carried carries_use c raw

/-- An action of any nesting only uses the session it runs in. -/
theorem action_uses (c : Setting) (base : Locator) (raw : Json) :
    (useRun (σ := σ)).Allows (action c base raw) := action_carried carries_use c base raw

end Exec
end PageSpec
