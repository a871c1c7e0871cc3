import PageSpec.Action.Basic
/-!
Reading actions and cases. The own fields of an action are visited before its hints, both in the
order they are written, and the first misfit is reported.
-/
namespace PageSpec

open Decoder

private def optText : Decoder (Option String) := optional string
private def optTexts : Decoder (Option (OneOrMany String)) := optional (OneOrMany.decode string)
private def optMillis : Decoder (Option Nat) := optional nat64

/-- Texts by name, sorted. -/
def Network.Headers.decode : Decoder Network.Headers
  | .obj fs => fs.foldlM (fun hs (k, v) => return Network.Headers.set hs k (← string v)) []
  | v => .error (.wrongType v "a map")

def RouteSpec.decode : Decoder RouteSpec :=
  record "RouteSpec"
    [ .of "unroute" optTexts fun v s => { s with unroute := v },
      .of "abort" optTexts fun v s => { s with abort := v },
      .of "reason" (optional Network.AbortReason.decode) fun v s => { s with reason := v },
      .of "url" optText fun v s => { s with url := v },
      .of "status" (optional nat16) fun v s => { s with status := v },
      .of "headers" Network.Headers.decode fun v s => { s with headers := v },
      .of "json" (optional .ok) fun v s => { s with json := v },
      .of "body" optText fun v s => { s with body := v },
      .of "contentType" optText fun v s => { s with contentType := v } ]
    ⟨none, none, none, none, none, [], none, none, none⟩

def ForEachSpec.decode : Decoder ForEachSpec :=
  record "ForEachSpec"
    [ .of "items" optText fun v s => { s with items := v },
      .of "actions" (list .ok) fun v s => { s with actions := v } ]
    ⟨none, []⟩

def CheckTarget.decode : Decoder CheckTarget
  | .str s => .ok (.target s)
  | .bool b => .ok (.flag b)
  | v =>
    match objectOnly "struct variant CheckTarget::Object" [.of "loc" optText fun l _ => l] none v with
    | .ok loc => .ok (.object loc)
    | .error _ => .error (.noAlternative "CheckTarget")

def SelectSpec.decode : Decoder SelectSpec :=
  record "SelectSpec"
    [ .of "loc" optText fun v s => { s with loc := v },
      .of "value" optTexts fun v s => { s with value := v },
      .of "label" optTexts fun v s => { s with label := v },
      .of "index" (optional (OneOrMany.decode size)) fun v s => { s with index := v } ]
    ⟨none, none, none, none⟩

def UploadSpec.decode : Decoder UploadSpec :=
  either "UploadSpec" (fun v => return .files (← OneOrMany.decode string v)) fun v => do
    let (loc, names) ← objectOnly "struct variant UploadSpec::Object"
      [ .of "loc" optText fun l s => (l, s.2), .of "files" optTexts fun f s => (s.1, f) ] (none, none) v
    return .object loc names

def TextCondition.decode : Decoder TextCondition :=
  record "TextExpectation"
    [ .of "equals" textLike fun v s => { s with equals := v },
      .of "contains" textLike fun v s => { s with contains := v },
      .of "timeout" optMillis fun v s => { s with timeout := v } ]
    ⟨none, none, none⟩

def VisibleCondition.decode : Decoder VisibleCondition :=
  either "VisibleExpectation" (fun v => return .target (← string v)) fun v =>
    return .options (← objectOnly "struct variant VisibleExpectation::Options"
      [.of "timeout" optMillis fun t _ => t] none v)

def ValueCondition.decode : Decoder ValueCondition :=
  record "ValueExpectation"
    [ .of "loc" optText fun v s => { s with loc := v },
      .of "equals" textLike fun v s => { s with equals := v },
      .of "contains" textLike fun v s => { s with contains := v },
      .of "timeout" optMillis fun v s => { s with timeout := v } ]
    ⟨none, none, none, none⟩

def RequestWait.decode : Decoder RequestWait :=
  record "WaitRequestSpec"
    [ .of "urlIncludes" optTexts fun v s => { s with urlIncludes := v },
      .of "status" (optional (OneOrMany.decode nat16)) fun v s => { s with status := v },
      .of "timeout" optMillis fun v s => { s with timeout := v } ]
    ⟨none, none, none⟩

def ResponseWait.decode : Decoder ResponseWait :=
  record "WaitResponseSpec"
    [ .of "url" optText fun v s => { s with url := v },
      .of "status" (optional nat16) fun v s => { s with status := v },
      .of "bodyContains" optText fun v s => { s with bodyContains := v },
      .of "timeout" optMillis fun v s => { s with timeout := v } ]
    ⟨none, none, none, none⟩

def ScrollSpec.decode : Decoder ScrollSpec :=
  either "ScrollSpec" (fun v => return .named (← string v)) fun v => do
    let (x, y, behavior, goal) ← objectOnly "struct variant ScrollSpec::Object"
      [ .of "x" (optional double) fun n s => (n, s.2),
        .of "y" (optional double) fun n (x, _, b, t) => (x, n, b, t),
        .of "behavior" optText fun w (x, y, _, t) => (x, y, w, t),
        .of "to" optText fun w (x, y, b, _) => (x, y, b, w) ] (none, none, none, none) v
    return .object x y behavior goal

def ScreenshotSpec.decode : Decoder ScreenshotSpec :=
  record "ScreenshotSpec"
    [ .of "path" optText fun v s => { s with path := v },
      .of "fullPage" bool fun v s => { s with fullPage := v },
      .of "loc" optText fun v s => { s with loc := v } ]
    ⟨none, false, none⟩

namespace Action

/-- The fields of an action apart from its hints. -/
def slots : List (Slot Action) := [
  .of "loc" optText fun v a => { a with loc := v },
  .of "timeout" optMillis fun v a => { a with timeout := v },
  .of "as" optText fun v a => { a with alias_ := v },
  .of "route" (optional RouteSpec.decode) fun v a => { a with route := v },
  .of "run" optText fun v a => { a with run := v },
  .of "exist" optText fun v a => { a with exist := v },
  .of "forEach" (optional ForEachSpec.decode) fun v a => { a with forEach := v },
  .of "getText" optText fun v a => { a with getText := v },
  .of "type" optText fun v a => { a with type := v },
  .of "typeSlow" optText fun v a => { a with typeSlow := v },
  .of "click" optText fun v a => { a with click := v },
  .of "hover" optText fun v a => { a with hover := v },
  .of "press" optText fun v a => { a with press := v },
  .of "check" (optional CheckTarget.decode) fun v a => { a with check := v },
  .of "uncheck" (optional CheckTarget.decode) fun v a => { a with uncheck := v },
  .of "select" (optional SelectSpec.decode) fun v a => { a with select := v },
  .of "upload" (optional UploadSpec.decode) fun v a => { a with upload := v },
  .of "expectText" (optional TextCondition.decode) fun v a => { a with expectText := v },
  .of "expectVisible" (optional VisibleCondition.decode) fun v a => { a with expectVisible := v },
  .of "expectValue" (optional ValueCondition.decode) fun v a => { a with expectValue := v },
  .of "expectUrl" (optional TextCondition.decode) fun v a => { a with expectUrl := v },
  .of "waitRequest" (optional RequestWait.decode) fun v a => { a with waitRequest := v },
  .of "waitResponse" (optional ResponseWait.decode) fun v a => { a with waitResponse := v },
  .of "wait" optMillis fun v a => { a with wait := v },
  .of "scrollTo" (optional ScrollSpec.decode) fun v a => { a with scrollTo := v },
  .of "screenshot" (optional ScreenshotSpec.decode) fun v a => { a with screenshot := v }]

/-- The action that some fields write. -/
def ofFields (fs : Fields) : Except Misfit Action := do
  let a ← fillFields slots empty fs
  let hints ← fillFields Hints.slots .none fs
  return { a with hints := hints }

/-- The action that a value writes. -/
def ofJson : Json → Except Mistake Action
  | .obj fs =>
    match ofFields fs with
    | .ok a => .ok a
    | .error m => .error (.action m)
  | v => .error (.actionShape v)

end Action

def ScenarioContext.decode : Decoder ScenarioContext
  | .obj fs => do
    let c ← fillFields
      [ .of "loc" optText fun v c => { c with loc := v },
        .of "click" optText fun v c => { c with click := v } ]
      (⟨.none, none, none⟩ : ScenarioContext) fs
    let hints ← fillFields Hints.slots .none fs
    return { c with hints := hints }
  | v => .error (.wrongType v "struct CaseContext")

def Scenario.decode : Decoder Scenario :=
  record "Case"
    [ .of "title" optText fun v c => { c with title := v },
      .of "url" optText fun v c => { c with url := v },
      .of "actions" (list .ok) fun v c => { c with actions := v },
      .of "context" (optional ScenarioContext.decode) fun v c => { c with context := v } ]
    ⟨none, none, [], none⟩

/-- The case that a value writes. -/
def Scenario.ofJson (v : Json) : Except Mistake Scenario :=
  match Scenario.decode v with
  | .ok c => .ok c
  | .error m => .error (.scenario m)

end PageSpec
