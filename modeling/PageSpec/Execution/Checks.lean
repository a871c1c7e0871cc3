import PageSpec.Execution.Basic
import PageSpec.Execution.Input
/-!
Operations that expect something of the page, and operations on its traffic: interception rules and
waits for responses.
-/
namespace PageSpec

/-- The expectation on the text of an element; the exact form comes before the part. -/
def TextCondition.on (s : TextCondition) (l : Locator) : Option Expectation :=
  (s.equals.map (.text l)).or (s.contains.map (.textPart l))

/-- The expectation on the text of the page. -/
def TextCondition.onPage (s : TextCondition) : Option Expectation :=
  (s.equals.map .exactText).or (s.contains.map .pageText)

/-- The expectation on the location. -/
def TextCondition.onUrl (s : TextCondition) : Option Expectation :=
  (s.equals.map .url).or (s.contains.map .urlPart)

/-- The expectation on the value of an input. -/
def ValueCondition.on (s : ValueCondition) (l : Locator) : Option Expectation :=
  (s.equals.map (.value l)).or (s.contains.map (.valuePart l))

namespace Exec
variable {σ : Type} [Browser σ]

def awaits (c : Setting) (timeout : Option Nat) (e : Option Expectation) : Exec σ Unit :=
  forSome e fun e => onSession (await (c.settings.patience.within timeout) e)

/-- On the explicit target of the action, or else anywhere on the page. -/
def expectText (c : Setting) (aim : Aim) (a : Action) (s : TextCondition) : Exec σ Unit := do
  if s.equals.isNone && s.contains.isNone then throw (.mistake .expectTextShape)
  match a.explicitTarget with
  | some t =>
    let l ← aim.one t
    awaits c s.timeout (s.on l)
  | none => awaits c s.timeout s.onPage

def expectVisible (c : Setting) (aim : Aim) (a : Action) (s : VisibleCondition) : Exec σ Unit := do
  let (written, timeout) := match s with
    | .target t => (nonBlank? t, a.timeout)
    | .options timeout => (a.explicitTarget, timeout.or a.timeout)
  let l ← aim.one (← target [written] .expectVisible)
  awaits c timeout (some (.visible l))

def expectValue (c : Setting) (aim : Aim) (s : ValueCondition) : Exec σ Unit := do
  let t ← target [s.loc.bind nonBlank?] .expectValue
  if s.equals.isNone && s.contains.isNone then throw (.mistake .expectValueShape)
  let l ← aim.one t
  awaits c s.timeout (s.on l)

def expectUrl (c : Setting) (s : TextCondition) : Exec σ Unit := do
  if s.equals.isNone && s.contains.isNone then throw (.mistake .expectUrlShape)
  awaits c s.timeout s.onUrl

end Exec

/-! ## Traffic -/

def OneOrMany.listOf {α : Type} (o : Option (OneOrMany α)) : List α := (o.map OneOrMany.toList).getD []

/-- The response that a rule for `url` answers with. -/
def RouteSpec.response (s : RouteSpec) : Network.Canned :=
  let base := match s.json, s.body with
    | some v, _ => Network.Canned.ofJson v
    | none, some text => Network.Canned.ofText text
    | none, none => .empty
  { base with
    status := s.status.getD base.status
    contentType := s.contentType.getD base.contentType
    headers := s.headers.foldl (fun hs (k, v) => Network.Headers.set hs k v) base.headers }

/-- The condition of a wait for a request: every part of the URL has to be a text. -/
def RequestWait.matcher (w : RequestWait) : Except Failure Network.Matcher :=
  let parts := OneOrMany.listOf w.urlIncludes
  let trimmed := parts.filterMap nonBlank?
  if parts.isEmpty || trimmed.length != parts.length then .error (.mistake .waitRequestShape)
  else .ok { Network.Matcher.urlParts trimmed with statuses := OneOrMany.listOf w.status }

/-- The condition of a wait for a response, without the body. -/
def ResponseWait.matcher (w : ResponseWait) : Except Failure Network.Matcher :=
  match w.url.bind nonBlank? with
  | none => .error (.mistake .waitResponseShape)
  | some glob =>
    .ok { Network.Matcher.glob glob with statuses := w.status.toList, bodyPart := w.bodyContains }

namespace Exec
variable {σ : Type} [Browser σ]

/-- Removes rules, then adds those that block and the one that answers. -/
def route (s : RouteSpec) : Exec σ Unit := do
  (OneOrMany.listOf s.unroute).forM fun source => onSession (Browser.unroute source)
  (OneOrMany.listOf s.abort).forM fun source =>
    onSession (Browser.route (.glob source (.abort (s.reason.getD .failed))))
  forSome s.url fun url => onSession (Browser.route (.glob url (.fulfill s.response)))
  if s.unroute.isNone && s.abort.isNone && s.url.isNone then throw (.mistake .routeShape)

def waitRequest (c : Setting) (w : RequestWait) : Exec σ Unit := do
  let m ← lift w.matcher
  let _ ← onSession (Browser.awaitResponse m (w.timeout.getD c.settings.requestTimeout))

/-- The body is checked on the response that URL and status pick. -/
def waitResponse (c : Setting) (w : ResponseWait) : Exec σ Unit := do
  let m ← lift w.matcher
  let r ← onSession (Browser.awaitResponse m (w.timeout.getD c.settings.responseTimeout))
  forSome w.bodyContains fun needle => do
    if !Text.has (r.body.getD "") needle then throw (.assertion (.bodyWithout r.url needle))

end Exec
end PageSpec
