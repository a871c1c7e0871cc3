import PageSpec.Action.Basic
/-!
Writing actions and cases. Absent fields of an action, its hints and its route are left out; inside
the other operations they are written as null.
-/
namespace PageSpec

private def orNull {α : Type} (f : α → Json) (v : Option α) : Json := .ofOption (v.map f)
private def natJson (n : Nat) : Json := .int n
private def textsJson (v : OneOrMany String) : Json := v.toJson .str
private def ifThere {α : Type} (name : String) (f : α → Json) (v : Option α) : Fields :=
  (v.map fun a => (name, f a)).toList

def RouteSpec.toJson (r : RouteSpec) : Json :=
  .obj (ifThere "unroute" textsJson r.unroute ++ ifThere "abort" textsJson r.abort ++
    ifThere "reason" (fun a => .str a.word) r.reason ++ ifThere "url" .str r.url ++
    ifThere "status" natJson r.status ++
    (if r.headers.isEmpty then [] else [("headers", .obj (r.headers.map fun (k, v) => (k, .str v)))]) ++
    ifThere "json" id r.json ++ ifThere "body" .str r.body ++
    ifThere "contentType" .str r.contentType)

def ForEachSpec.toJson (s : ForEachSpec) : Json :=
  .obj [("items", orNull .str s.items), ("actions", .arr s.actions)]

def CheckTarget.toJson : CheckTarget → Json
  | .target s => .str s
  | .object loc => .obj [("loc", orNull .str loc)]
  | .flag b => .bool b

def SelectSpec.toJson (s : SelectSpec) : Json :=
  .obj [("loc", orNull .str s.loc), ("value", orNull textsJson s.value),
    ("label", orNull textsJson s.label), ("index", orNull (·.toJson natJson) s.index)]

def UploadSpec.toJson : UploadSpec → Json
  | .files names => textsJson names
  | .object loc names => .obj [("loc", orNull .str loc), ("files", orNull textsJson names)]

def TextCondition.toJson (c : TextCondition) : Json :=
  .obj [("equals", orNull .str c.equals), ("contains", orNull .str c.contains),
    ("timeout", orNull natJson c.timeout)]

def VisibleCondition.toJson : VisibleCondition → Json
  | .target s => .str s
  | .options timeout => .obj [("timeout", orNull natJson timeout)]

def ValueCondition.toJson (c : ValueCondition) : Json :=
  .obj [("loc", orNull .str c.loc), ("equals", orNull .str c.equals),
    ("contains", orNull .str c.contains), ("timeout", orNull natJson c.timeout)]

def RequestWait.toJson (w : RequestWait) : Json :=
  .obj [("urlIncludes", orNull textsJson w.urlIncludes), ("status", orNull (·.toJson natJson) w.status),
    ("timeout", orNull natJson w.timeout)]

def ResponseWait.toJson (w : ResponseWait) : Json :=
  .obj [("url", orNull .str w.url), ("status", orNull natJson w.status),
    ("bodyContains", orNull .str w.bodyContains), ("timeout", orNull natJson w.timeout)]

def ScrollSpec.toJson : ScrollSpec → Json
  | .named word => .str word
  | .object x y behavior goal =>
    .obj [("x", orNull .float x), ("y", orNull .float y), ("behavior", orNull .str behavior),
      ("to", orNull .str goal)]

def ScreenshotSpec.toJson (s : ScreenshotSpec) : Json :=
  .obj [("path", orNull .str s.path), ("fullPage", .bool s.fullPage), ("loc", orNull .str s.loc)]

def Action.toJson (a : Action) : Json :=
  .obj (a.hints.toFields ++ ifThere "loc" .str a.loc ++ ifThere "timeout" natJson a.timeout ++
    ifThere "as" .str a.alias_ ++ ifThere "route" RouteSpec.toJson a.route ++
    ifThere "run" .str a.run ++ ifThere "exist" .str a.exist ++
    ifThere "forEach" ForEachSpec.toJson a.forEach ++ ifThere "getText" .str a.getText ++
    ifThere "type" .str a.type ++ ifThere "typeSlow" .str a.typeSlow ++
    ifThere "click" .str a.click ++ ifThere "hover" .str a.hover ++ ifThere "press" .str a.press ++
    ifThere "check" CheckTarget.toJson a.check ++ ifThere "uncheck" CheckTarget.toJson a.uncheck ++
    ifThere "select" SelectSpec.toJson a.select ++ ifThere "upload" UploadSpec.toJson a.upload ++
    ifThere "expectText" TextCondition.toJson a.expectText ++
    ifThere "expectVisible" VisibleCondition.toJson a.expectVisible ++
    ifThere "expectValue" ValueCondition.toJson a.expectValue ++
    ifThere "expectUrl" TextCondition.toJson a.expectUrl ++
    ifThere "waitRequest" RequestWait.toJson a.waitRequest ++
    ifThere "waitResponse" ResponseWait.toJson a.waitResponse ++ ifThere "wait" natJson a.wait ++
    ifThere "scrollTo" ScrollSpec.toJson a.scrollTo ++
    ifThere "screenshot" ScreenshotSpec.toJson a.screenshot)

def ScenarioContext.toJson (c : ScenarioContext) : Json :=
  .obj (c.hints.toFields ++ ifThere "loc" .str c.loc ++ ifThere "click" .str c.click)

def Scenario.toJson (c : Scenario) : Json :=
  .obj [("title", orNull .str c.title), ("url", orNull .str c.url), ("actions", .arr c.actions),
    ("context", orNull ScenarioContext.toJson c.context)]

end PageSpec
