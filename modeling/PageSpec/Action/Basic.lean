import PageSpec.Hints
import PageSpec.Network.Route
/-!
Actions and cases as documents write them. An action names any number of operations; each has its
own shape, and several share the explicit target `loc`.
-/
namespace PageSpec

/-- Rules to add to or remove from the interception table. -/
structure RouteSpec where
  unroute : Option (OneOrMany String)
  abort : Option (OneOrMany String)
  reason : Option Network.AbortReason
  url : Option String
  status : Option Nat
  headers : Network.Headers
  json : Option Json
  body : Option String
  contentType : Option String

/-- A loop over the elements that `items` matches. -/
structure ForEachSpec where
  items : Option String
  /-- Actions as written; they are read when their turn comes. -/
  actions : List Json

/-- What to check or uncheck. -/
inductive CheckTarget where
  | target (text : String)
  | object (loc : Option String)
  /-- The target is written elsewhere. -/
  | flag (value : Bool)
  deriving DecidableEq, Repr

/-- The target that is written on the operation itself. -/
def CheckTarget.text? (t : CheckTarget) : Option String :=
  let text := match t with
    | .target s => some s
    | .object loc => loc
    | .flag _ => none
  text.filter (!Text.allBlank ·)

/-- Options to select; values come before labels, and labels before positions. -/
structure SelectSpec where
  loc : Option String
  value : Option (OneOrMany String)
  label : Option (OneOrMany String)
  index : Option (OneOrMany Nat)
  deriving DecidableEq, Repr

/-- Files to attach. -/
inductive UploadSpec where
  | files (names : OneOrMany String)
  | object (loc : Option String) (names : Option (OneOrMany String))
  deriving DecidableEq, Repr

def UploadSpec.loc : UploadSpec → Option String
  | .files _ => none
  | .object loc _ => loc
def UploadSpec.names : UploadSpec → List String
  | .files names => names.toList
  | .object _ names => (names.map OneOrMany.toList).getD []

/-- A condition on a text; the exact form comes before the part. -/
structure TextCondition where
  equals : Option String
  contains : Option String
  timeout : Option Nat
  deriving DecidableEq, Repr

/-- A condition on being visible. -/
inductive VisibleCondition where
  | target (text : String)
  | options (timeout : Option Nat)
  deriving DecidableEq, Repr

/-- A condition on the value of an input. -/
structure ValueCondition where
  loc : Option String
  equals : Option String
  contains : Option String
  timeout : Option Nat
  deriving DecidableEq, Repr

/-- A response to wait for, by parts of its URL. -/
structure RequestWait where
  urlIncludes : Option (OneOrMany String)
  status : Option (OneOrMany Nat)
  timeout : Option Nat
  deriving DecidableEq, Repr

/-- A response to wait for, by a glob on its URL. -/
structure ResponseWait where
  url : Option String
  status : Option Nat
  bodyContains : Option String
  timeout : Option Nat
  deriving DecidableEq, Repr

/-- Where to scroll. -/
inductive ScrollSpec where
  | named (word : String)
  | object (x y : Option Binary64) (behavior goal : Option String)
  deriving DecidableEq, Repr

/-- A picture to take. -/
structure ScreenshotSpec where
  path : Option String
  fullPage : Bool
  loc : Option String
  deriving DecidableEq, Repr

/-- One action of a case. -/
structure Action where
  hints : Hints
  /-- The target of operations that name none. -/
  loc : Option String
  /-- Milliseconds for operations that give none. -/
  timeout : Option Nat
  /-- One more name for the result of `run`. -/
  alias_ : Option String
  route : Option RouteSpec
  run : Option String
  exist : Option String
  forEach : Option ForEachSpec
  getText : Option String
  type : Option String
  typeSlow : Option String
  click : Option String
  hover : Option String
  press : Option String
  check : Option CheckTarget
  uncheck : Option CheckTarget
  select : Option SelectSpec
  upload : Option UploadSpec
  expectText : Option TextCondition
  expectVisible : Option VisibleCondition
  expectValue : Option ValueCondition
  expectUrl : Option TextCondition
  waitRequest : Option RequestWait
  waitResponse : Option ResponseWait
  wait : Option Nat
  scrollTo : Option ScrollSpec
  screenshot : Option ScreenshotSpec

namespace Action

def empty : Action :=
  ⟨.none, none, none, none, none, none, none, none, none, none, none, none, none, none, none, none,
    none, none, none, none, none, none, none, none, none, none, none⟩

/-- The click target, if it is a selector. -/
def clickSelector (a : Action) : Option String := a.click.filter isSelectorText
/-- `loc`, or else a click target that is a selector. -/
def explicitTarget (a : Action) : Option String := a.loc.or a.clickSelector

/-- The keys of operations, in the order of their execution. -/
def operationKeys : List String := [
  "route", "run", "exist", "forEach", "getText", "typeSlow", "type", "click", "hover", "press",
  "check", "uncheck", "select", "upload", "expectText", "expectVisible", "expectValue",
  "expectUrl", "waitRequest", "waitResponse", "wait", "scrollTo", "screenshot"]

/-- Whether an action as written names an operation. -/
def hasOperation (fs : Fields) : Bool := operationKeys.any (Fields.has fs)

end Action

/-- The hints of a case, and a default target for `check` and `uncheck`. -/
structure ScenarioContext where
  hints : Hints
  loc : Option String
  click : Option String
  deriving DecidableEq, Repr

/-- `loc`, or else a click target that is a selector. -/
def ScenarioContext.target (c : ScenarioContext) : Option String :=
  c.loc.or (c.click.filter isSelectorText)

/-- One case of a document; its actions stay as they are written until they run. -/
structure Scenario where
  title : Option String
  url : Option String
  actions : List Json
  context : Option ScenarioContext

end PageSpec
