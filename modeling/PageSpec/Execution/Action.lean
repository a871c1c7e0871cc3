import PageSpec.Execution.Checks
/-!
Running actions. An action may carry any number of operations; they run in one fixed order, however
they are written, and the first failure ends the action. `route` and `run` come before the action is
read in full, so that what `run` stores can be used in the same action. An `exist` target that is not
there ends the action without failing it. The actions of a `forEach` run once for each item, which is
their page.
-/
namespace PageSpec

/-- The hints of an action over those of the case. -/
def Setting.hints (c : Setting) (a : Action) : HintView := ⟨a.hints, c.context.map (·.hints)⟩

/-- The action with its tokens replaced; the actions inside a `forEach` wait for their turn. -/
def fillAction (b : Bag) (raw : Json) : Json :=
  match interpolateValue b raw, (raw.field? "forEach").bind (·.field? "actions") with
  | .obj fs, some nested =>
    match Fields.get? fs "forEach" with
    | some (.obj loop) => .obj (Fields.set fs "forEach" (.obj (Fields.set loop "actions" nested)))
    | _ => .obj fs
  | filled, _ => filled

namespace Exec
variable {σ : Type} [Browser σ]

/-! ## Functions -/

/-- Calls a function and stores its result, under an alias too if one is given. -/
def runFunction (c : Setting) (run : Json) (alias_ : Option Json) : Exec σ Unit := do
  match c.functions with
  | none => throw (.functionBag .absent)
  | some b =>
    match run.str?.bind nonBlank? with
    | none => throw (.mistake (.runName run))
    | some name =>
      if !b.has name then throw (.unknownFunction name)
      let (result, files) := b.call c.starter name (← get).files
      modify fun r => { r with files := files }
      let v ← lift result
      store resultKey v
      forSome ((alias_.bind Json.str?).bind nonBlank?) fun key => store key v

/-! ## Loops -/

/-- The base of one item: the match at a position. -/
def item (all : Locator) (i : Nat) : Locator := all.add (.nth i)

/-- Runs the actions for each of the items; every item starts from the memo before the loop. -/
def forEach (sub : Locator → Json → Exec σ Unit) (aim : Aim) (s : ForEachSpec) : Exec σ Unit := do
  let items ← target [s.items.bind nonBlank?] .forEach
  let all ← onSession (locateAll aim.scope items aim.hints .items)
  let n ← onSession (Browser.count all)
  (List.range n).forM fun i => do
    let base := item all i
    onSession (tryCatch (Browser.scrollIntoView base) fun _ => pure ())
    keepingMemo (s.actions.forM (sub base))

/-! ## One action -/

/-- Whether an `exist` target keeps the rest of the action from running. -/
def gated (aim : Aim) (a : Action) : Exec σ Bool :=
  match a.exist with
  | none => return false
  | some t => return (← onSession (countMatches (aim.scope.allOf (Text.trim t)))) = 0

/-- The operations behind the gate, in order. -/
def operations (c : Setting) (sub : Locator → Json → Exec σ Unit) (aim : Aim) (a : Action) :
    List (Exec σ Unit) := [
  forSome a.forEach (forEach sub aim),
  forSome a.getText (getText aim),
  type c aim a,
  forSome a.click (click aim),
  forSome a.hover (hover aim),
  forSome a.press (press aim a),
  forSome a.check fun t => setChecked c aim a t true,
  forSome a.uncheck fun t => setChecked c aim a t false,
  forSome a.select (select aim a),
  forSome a.upload (upload c aim a),
  forSome a.expectText (expectText c aim a),
  forSome a.expectVisible (expectVisible c aim a),
  forSome a.expectValue (expectValue c aim),
  forSome a.expectUrl (expectUrl c),
  forSome a.waitRequest (waitRequest c),
  forSome a.waitResponse (waitResponse c),
  forSome a.scrollTo (scrollTo aim),
  forSome a.screenshot (screenshot aim a)]

/-- Runs an action that has been read, `route` and `run` apart. -/
def perform (c : Setting) (sub : Locator → Json → Exec σ Unit) (base : Locator) (a : Action) :
    Exec σ Unit := do
  let _ ← lift (c.hints a).pick
  let aim : Aim := ⟨← onSession (buildScope (c.hints a) base), c.hints a⟩
  if ← gated aim a then return
  (operations c sub aim a).forM id

/-- The `route` of an action as written. -/
def routeStep (fs : Fields) : Exec σ Unit :=
  forSome (Fields.get? fs "route") fun written => do
    match RouteSpec.decode (interpolateValue (← get).bag written) with
    | .ok s => route s
    | .error m => throw (.mistake (.route m))

/-- Whether an action is nothing but a call. -/
def isBareRun (fs : Fields) : Bool :=
  Fields.has fs "run" && (Fields.keys fs).all fun k => k == "run" || k == "as"

/-- What an action as written comes to after its `route` and its `run`: nothing more, or an action
that has been read. An action without an operation does nothing. -/
def reading (c : Setting) (raw : Json) : Exec σ (Option Action) := do
  match raw with
  | .obj fs =>
    if !Action.hasOperation fs then return none
    routeStep fs
    forSome (Fields.get? fs "run") fun run => runFunction c run (Fields.get? fs "as")
    if isBareRun fs then return none
    match Action.ofJson (fillAction (← get).bag raw) with
    | .ok a => return some a
    | .error m => throw (.mistake m)
  | v => throw (.mistake (.actionShape v))

/-- Runs an action as written, given how the actions inside it run. -/
def actionWith (c : Setting) (sub : Locator → Json → Exec σ Unit) (base : Locator) (raw : Json) :
    Exec σ Unit := do
  match ← reading c raw with
  | some a => perform c sub base a
  | none => return

/-- Runs an action whose loops are nested at most `n` deep. -/
def actionUpTo (c : Setting) : Nat → Locator → Json → Exec σ Unit
  | 0 => fun _ _ => pure ()
  | n + 1 => actionWith c (actionUpTo c n)

/-- Runs an action as written. An action inside another is nested less deep than it. -/
def action (c : Setting) (base : Locator) (raw : Json) : Exec σ Unit :=
  actionUpTo c (raw.depth + 1) base raw

end Exec
end PageSpec
