import PageSpec.Browser.Call
import PageSpec.Page.Resolve
/-!
A page in memory as a browser session. Every call that does something is recorded before its locator
is resolved. Interactions change the location, the responses still waiting, the interception rules
and the inputs of elements, but never the elements themselves.
-/
namespace PageSpec

/-- The state of a page in memory. -/
structure Page where
  forest : Page.Forest
  /-- The inputs of the nodes, place by place. -/
  inputs : List Page.Input
  url : String
  /-- The recorded calls, oldest first. -/
  history : List Call
  /-- Responses that no wait has passed yet, oldest first. -/
  responses : List Network.Response
  routes : Network.RouteTable

namespace Page

/-- A page that shows a document and has no location yet. -/
def ofDocument (document : List Element) : Page :=
  let (forest, inputs) := Forest.build document
  ⟨forest, inputs, "about:blank", [], [], .empty⟩

/-- One more response at the end of the queue. -/
def receive (p : Page) (r : Network.Response) : Page := { p with responses := p.responses ++ [r] }

/-- What a request for a URL would meet. -/
def intercept (p : Page) (url : String) : Option Network.RouteAction :=
  (p.routes.find? url).map (·.action)

/-- The recorded calls whose text starts with the given one. -/
def callsLike (p : Page) (start : String) : List Call :=
  p.history.filter fun c => start.toList.isPrefixOf c.describe.toList

/-- The signature that every picture starts with, and all there is to one of a page in memory. -/
def picture : List UInt8 := [137, 80, 78, 71, 13, 10, 26, 10]

/-! ## Building blocks -/

def record (c : Call) : Act Page Unit := modify fun p => { p with history := p.history ++ [c] }

/-- The elements that a locator stands for. -/
def matches_ (l : Locator) : Act Page (List Nat) := do
  match resolve (← get).forest l with
  | .ok found => return found
  | .error e => throw (.session (.selector e.text e.error))

/-- The first element that a locator stands for. -/
def located (l : Locator) : Act Page Nat := do
  match ← matches_ l with
  | i :: _ => return i
  | [] => throw (.session (.noElement l))

def traitsAt (i : Nat) : Act Page Traits := do
  return (((← get).forest.node? i).map (·.traits)).getD (.ofTag "")

def inputAt (i : Nat) : Act Page Input := do return ((← get).inputs[i]?).getD ⟨"", false, 0⟩

def change (i : Nat) (f : Input → Input) : Act Page Unit :=
  modify fun p => { p with inputs := p.inputs.modify i f }

/-- The values and the visible texts of a list's options. An option without a value has its text. -/
def optionsOf (f : Forest) (i : Nat) : List (String × String) :=
  (f.children i).filterMap fun c =>
    match f.node? c with
    | some n =>
      if n.traits.tag = "option" then
        let label := f.plainText c
        some ((n.traits.attrs.lookup "value").getD label, label)
      else none
    | none => none

/-- The values of the chosen options, if all of them are there. -/
def choose (options : List (String × String)) : Choice → Option (List String)
  | .values vs => vs.mapM fun v => (options.find? (·.1 == v)).map (·.1)
  | .labels ls => ls.mapM fun l => (options.find? (·.2 == l)).map (·.1)
  | .indexes is => is.mapM fun i => (options[i]?).map (·.1)

/-- The earliest response whose URL and status fit, and the responses after it. -/
def nextResponse (m : Network.Matcher) :
    List Network.Response → Option (Network.Response × List Network.Response)
  | [] => none
  | r :: rest => if m.admitsHead r.url r.status then some (r, rest) else nextResponse m rest

/-! ## Capabilities -/

def click (l : Locator) (force : Bool) : Act Page Unit := do
  record (.click l force)
  let i ← located l
  let t ← traitsAt i
  if !force && (t.covered || !(← get).forest.visible i) then throw (.session (.clickMissed l))
  if t.isToggle then change i fun s => { s with checked := !s.checked }
  match t.navigatesTo with
  | some url => modify fun p => { p with url := url }
  | none => return

def setChecked (l : Locator) (checked : Bool) : Act Page Unit := do
  record (.setChecked l checked)
  let i ← located l
  unless (← traitsAt i).isToggle do throw (.session (.notToggle l))
  change i fun s => { s with checked := checked }

def selectOptions (l : Locator) (choice : Choice) : Act Page (List String) := do
  record (.select l choice)
  let i ← located l
  unless (← traitsAt i).tag = "select" do throw (.session (.notSelect l))
  match choose (optionsOf (← get).forest i) choice with
  | none => throw (.session (.noOption l))
  | some [] => return []
  | some (v :: vs) =>
    change i fun s => { s with value := v }
    return v :: vs

/-- A field without the attribute `multiple` holds one file at most. -/
def attachFiles (l : Locator) (paths : List String) : Act Page Unit := do
  record (.attach l paths.length)
  let i ← located l
  let many := ((← traitsAt i).attrs.lookup "multiple").isSome
  change i fun s => { s with files := if many then paths.length else min paths.length 1 }

def screenshot (l : Option Locator) (fullPage : Bool) : Act Page (List UInt8) := do
  record (.screenshot l fullPage)
  match l with
  | some l => let _ ← located l
  | none => pure ()
  return picture

/-- Passes responses until one fits; if none does, the queue is empty afterwards. -/
def awaitResponse (m : Network.Matcher) (timeout : Nat) : Act Page Network.Response := do
  record (.await m)
  match nextResponse m (← get).responses with
  | some (r, rest) =>
    modify fun p => { p with responses := rest }
    return r
  | none =>
    modify fun p => { p with responses := [] }
    throw (.timeout timeout m)

/-- Records a call on an element and finds the element. -/
def recorded (c : Call) (l : Locator) : Act Page Nat := do
  record c
  located l

instance : Browser Page where
  start := record .started
  navigate url := do
    record (.navigate url)
    modify fun p => { p with url := url }
  currentUrl := return (← get).url
  count l := return (← matches_ l).length
  click := click
  hover l := do let _ ← recorded (.hover l) l
  fill l text := do
    let i ← recorded (.fill l text) l
    change i fun s => { s with value := text }
  typeText l text _ := do
    let i ← recorded (.typeText l text) l
    change i fun s => { s with value := s.value ++ text }
  press l chord := do
    record (.press l chord)
    match l with
    | some l => let _ ← located l
    | none => return
  setChecked := setChecked
  selectOptions := selectOptions
  attachFiles := attachFiles
  textContent l := do
    let i ← located l
    return some ((← get).forest.text i)
  inputValue l := return (← inputAt (← located l)).value
  attributeOf l name := return (← traitsAt (← located l)).attr? name
  tagName l := return (← traitsAt (← located l)).tag
  fileCount l := return (← inputAt (← located l)).files
  isVisible l := do
    match ← matches_ l with
    | i :: _ => return (← get).forest.visible i
    | [] => return false
  scrollIntoView l := do let _ ← recorded (.scrollIntoView l) l
  scrollPage goal := record (.scrollPage goal)
  screenshot := screenshot
  pageText := return (← get).forest.documentText 0
  awaitResponse := awaitResponse
  route rule := do
    record (.route rule.source)
    modify fun p => { p with routes := p.routes.add rule }
  unroute source := do
    record (.unroute source)
    modify fun p => { p with routes := (p.routes.remove source).1 }
  close := record .closed

end Page
end PageSpec
