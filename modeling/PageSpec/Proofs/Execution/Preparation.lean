import PageSpec.Proofs.Execution.Nesting
import PageSpec.Page.Session
/-!
What an action does before it is read in full: its `route`, and after that its `run`. The rules of the
page and its record of them change, the call may leave other files, and its answer is stored; all else
stays. An action that is more than a call then goes on from there.
-/
namespace PageSpec

/-- Whether a call was made to change the interception rules. -/
def Call.isRouting : Call → Bool
  | .route _ | .unroute _ => true
  | _ => false

namespace Exec
variable {c : Setting} {fs : Fields}

/-- What comes before an action is read in full. -/
def preparation {σ : Type} [Browser σ] (c : Setting) (fs : Fields) : Exec σ Unit := do
  routeStep fs
  forSome (Fields.get? fs "run") fun run => runFunction c run (Fields.get? fs "as")

/-! ## Rules -/

/-- The rules change, and what was asked is recorded; nothing else does. -/
def Rerouted (r q : Run Page) : Prop :=
  ∃ calls rules, (∀ call ∈ calls, call.isRouting = true) ∧ q = { r with
    session := { r.session with history := r.session.history ++ calls, routes := rules } }

theorem Rerouted.refl (r : Run Page) : Rerouted r r :=
  ⟨[], r.session.routes, by simp, by rw [List.append_nil]⟩

theorem Rerouted.trans {r q t : Run Page} (first : Rerouted r q) (second : Rerouted q t) :
    Rerouted r t := by
  obtain ⟨calls, rules, routing, rfl⟩ := first
  obtain ⟨calls', rules', routing', rfl⟩ := second
  refine ⟨calls ++ calls', rules', fun call member => ?_, by rw [List.append_assoc]⟩
  exact (List.mem_append.mp member).elim (routing call) (routing' call)

/-- Changing the rules; what comes to no rule at all is refused. -/
def rerouting : Bound (Run Page) :=
  ⟨⟨Rerouted, .refl, .trans⟩, fun e => e = .mistake .routeShape⟩

theorem addRule_rerouting (rule : Network.Rule) : rerouting.Holds (onSession (Browser.route rule)) := by
  have added (r : Run Page) : onSession (Browser.route rule) r = (.ok (), { r with
      session := { r.session with
        history := r.session.history ++ [.route rule.source]
        routes := r.session.routes.add rule } }) := rfl
  refine ⟨fun r => ?_, fun r e failed => ?_⟩
  · rw [added]
    exact ⟨[.route rule.source], _, by simp [Call.isRouting], rfl⟩
  · rw [added] at failed
    cases failed

theorem unroute_rerouting (source : String) : rerouting.Holds (onSession (Browser.unroute source)) := by
  have removed (r : Run Page) : onSession (Browser.unroute source) r = (.ok (), { r with
      session := { r.session with
        history := r.session.history ++ [.unroute source]
        routes := (r.session.routes.remove source).1 } }) := rfl
  refine ⟨fun r => ?_, fun r e failed => ?_⟩
  · rw [removed]
    exact ⟨[.unroute source], _, by simp [Call.isRouting], rfl⟩
  · rw [removed] at failed
    cases failed

theorem route_rerouting (s : RouteSpec) : rerouting.Holds (route s) :=
  route_holds addRule_rerouting unroute_rerouting rfl s

/-- What a `route` that is refused is refused for: it cannot be read, or it asks for nothing. -/
def Misrouted (fs : Fields) (b : Bag) (e : Failure) : Prop :=
  e = .mistake .routeShape ∨ ∃ written m, Fields.get? fs "route" = some written ∧
    RouteSpec.decode (interpolateValue b written) = .error m ∧ e = .mistake (.route m)

theorem routeStep_rerouted (fs : Fields) (r : Run Page) : Rerouted r (routeStep fs r).2 ∧
    ∀ e, (routeStep fs r).1 = .error e → Misrouted fs r.bag e := by
  unfold routeStep
  cases written : Fields.get? fs "route" with
  | none => exact ⟨.refl r, nofun⟩
  | some v =>
    rw [forSome_some, Act.bind_ok (Act.get_apply r)]
    cases decoded : RouteSpec.decode (interpolateValue r.bag v) with
    | error m =>
      refine ⟨.refl r, fun e failed => .inr ⟨v, m, written, decoded, ?_⟩⟩
      exact (Except.error.inj failed).symm
    | ok s =>
      obtain ⟨moved, may⟩ := route_rerouting s
      exact ⟨moved r, fun e failed => .inl (may r e failed)⟩

/-! ## Both -/

/-- How the preparation of an action ends, from one run to another: at its `route`, without a call, or
with the end of its call. -/
inductive Prepared (c : Setting) (fs : Fields) (r : Run Page) : Except Failure Unit → Run Page → Prop
  | misrouted {e : Failure} {q : Run Page} (rerouted : Rerouted r q) (cause : Misrouted fs r.bag e) :
    Prepared c fs r (.error e) q
  | uncalled {q : Run Page} (rerouted : Rerouted r q) (idle : Fields.get? fs "run" = none) :
    Prepared c fs r (.ok ()) q
  | called {p q : Run Page} {run : Json} {x : Except Failure Unit} (rerouted : Rerouted r p)
    (written : Fields.get? fs "run" = some run)
    (ended : Called c run (aliasOf (Fields.get? fs "as")) p x q) : Prepared c fs r x q

theorem preparation_prepared (c : Setting) (fs : Fields) (r : Run Page) :
    Prepared c fs r (preparation c fs r).1 (preparation c fs r).2 := by
  obtain ⟨moved, cause⟩ := routeStep_rerouted fs r
  unfold preparation
  rcases routed : routeStep fs r with ⟨e | _, p⟩
  · rw [routed] at moved cause
    rw [Act.bind_error routed]
    exact .misrouted moved (cause e rfl)
  · rw [routed] at moved
    rw [Act.bind_ok routed]
    cases written : Fields.get? fs "run" with
    | none => exact .uncalled moved written
    | some run => exact .called moved written (runFunction_called run _ p)

/-! ## Going on -/

variable {base : Locator}

theorem reading_prepared {σ : Type} [Browser σ] (operates : Action.hasOperation fs = true) :
    reading (σ := σ) c (.obj fs) = preparation c fs >>= fun _ =>
      if isBareRun fs then pure none else get >>= fun r =>
        match Action.ofJson (fillAction r.bag (.obj fs)) with
        | .ok a => pure (some a)
        | .error m => throw (.mistake m) := by
  unfold reading preparation
  rw [bind_assoc]
  exact if_neg (by simp [operates])

variable {r q : Run Page}

/-- An action without an operation does nothing. -/
theorem action_idle (idle : Action.hasOperation fs = false) : action c base (.obj fs) r = (.ok (), r) := by
  rw [action_eq]
  unfold actionWith reading
  simp only [idle, Bool.not_false, ↓reduceIte]
  rfl

/-- A failure before an action is read is the failure of the action. -/
theorem action_unprepared {e : Failure} (operates : Action.hasOperation fs = true)
    (failed : preparation c fs r = (.error e, q)) : action c base (.obj fs) r = (.error e, q) := by
  rw [action_eq]
  unfold actionWith
  rw [reading_prepared operates, bind_assoc]
  exact Act.bind_error failed _

/-- What comes after a preparation: nothing for a mere call, and otherwise what is read. -/
theorem action_after (operates : Action.hasOperation fs = true) (done : preparation c fs r = (.ok (), q)) :
    action c base (.obj fs) r = if isBareRun fs then (.ok (), q) else
      match Action.ofJson (fillAction q.bag (.obj fs)) with
      | .ok a => perform c (action c) base a q
      | .error m => (.error (.mistake m), q) := by
  rw [action_eq]
  unfold actionWith
  rw [reading_prepared operates, bind_assoc, Act.bind_ok done]
  by_cases bare : isBareRun fs = true
  · simp only [bare, ↓reduceIte]
    rfl
  · simp only [bare, Bool.false_eq_true, ↓reduceIte, bind_assoc]
    rw [Act.bind_ok (Act.get_apply q)]
    cases Action.ofJson (fillAction q.bag (.obj fs)) with
    | ok a => rfl
    | error m => rfl

/-- An action that is read goes on where its preparation left off. -/
theorem action_prepared {a : Action} (operates : Action.hasOperation fs = true)
    (more : isBareRun fs = false) (done : preparation c fs r = (.ok (), q))
    (read : Action.ofJson (fillAction q.bag (.obj fs)) = .ok a) :
    action c base (.obj fs) r = perform c (action c) base a q := by
  rw [action_after operates done, more, read]
  rfl

end Exec
end PageSpec
