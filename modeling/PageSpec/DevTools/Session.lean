import PageSpec.Browser.Basic
import PageSpec.DevTools.Command
import PageSpec.DevTools.Script
import PageSpec.Text.Utf8
/-!
A real browser as a browser session. Elements are found by scripts in the page; pointers and keys go
through commands, so that the page takes them for a user's. The state is what the browser has been
told and has told so far: interception rules and the location are kept on this side.
-/

/-! ## Launching -/

namespace PageSpec.DevTools

/-- The settings of a launch. -/
structure Config where
  headless : Bool
  width : Nat
  height : Nat
  /-- The program to launch; none for one that is found on the machine. -/
  path : Option String
  sandbox : Bool
  /-- How long a navigation may take, in milliseconds. -/
  timeout : Nat
  deriving DecidableEq, Repr

namespace Config

def default : Config := ⟨true, 1280, 720, none, true, 30000⟩

/-- The arguments of a launch that the settings decide. -/
def arguments (c : Config) : List String :=
  [s!"--window-size={c.width},{c.height}"] ++
    (if c.sandbox then [] else ["--no-sandbox", "--disable-setuid-sandbox"]) ++
    (if c.headless then ["--headless"] else [])

end Config

/-! ## Sessions -/

/-- How far interception has come. Requests are paused once, and only if that succeeds are they
answered. -/
inductive Interception where
  | untried
  /-- Pausing was asked for, but nobody answers paused requests. -/
  | unattended
  | attended
  deriving DecidableEq, Repr

/-- The names of an open tab. -/
structure Tab where
  target : String
  frame : String
  deriving DecidableEq, Repr

/-- A session with a browser. -/
structure Session where
  config : Config
  tab : Tab
  /-- What the browser replies to a command, by the number of commands sent before it. -/
  peer : Nat → Command → Reply
  /-- What the browser reports while a response is awaited. -/
  reports : List Event
  /-- The commands sent so far, oldest first. -/
  sent : List Command
  /-- The location that the browser has gone to last. -/
  url : String
  routes : Network.RouteTable
  interception : Interception

namespace Session

/-- Starts a browser; a program of one's own has to be there. -/
def launch (installed : String → Bool) (config : Config) (tab : Tab)
    (peer : Nat → Command → Reply) : Except Failure Session :=
  if config.path.all installed then
    .ok ⟨config, tab, peer, [], [], "about:blank", .empty, .untried⟩
  else .error (.session (.notLaunched .notFound))

/-! ## Commands and their replies -/

/-- Sends a command. -/
def exchange (c : Command) : Act Session Reply := do
  let s ← get
  set { s with sent := s.sent ++ [c] }
  return s.peer s.sent.length c

/-- Sends a command and yields the data of its result. -/
def request (c : Command) : Act Session Json := do
  match ← exchange c with
  | .result data => return data
  | .failure code text => throw (.session (.refused code text))
  | .silence => throw (.session .noReply)

/-- Sends a command that has no result. -/
def tell (c : Command) : Act Session Unit := do let _ ← request c

/-- What a value should be, or the fault that it is not. -/
def understood {α : Type} : Except Misfit α → Act Session α
  | .ok a => return a
  | .error m => throw (.session (.unreadable m))

/-- The outcome of an evaluation: what it threw, and the object it ended with. -/
structure Outcome where
  thrown : Option String
  object : Json

def Outcome.decode : Decoder Outcome
  | .obj fs => do
    let object ← Decoder.required "result" (Fields.get? fs "result")
    let thrown := ((Fields.get? fs "exceptionDetails").bind (·.field? "text")).bind Json.str?
    match object with
    | .obj parts =>
      let _ ← Decoder.required "type" (Fields.get? parts "type")
      return ⟨thrown, object⟩
    | v => throw (.wrongType v "struct RemoteObject")
  | v => throw (.wrongType v "struct EvaluateReturns")

/-- Evaluates a script to a value. A null counts as no value. -/
def evaluate {α : Type} (d : Decoder α) (script : String) : Act Session α := do
  let outcome ← understood (Outcome.decode (← request (.evaluate script)))
  match outcome.thrown with
  | some text => throw (.session (.exception text))
  | none => pure ()
  match outcome.object.field? "value" with
  | none | some .null => throw (.session .noValue)
  | some v => understood (d v)

/-! ## Elements -/

/-- Does something to an element in the page. -/
def perform (l : Locator) (body : String) : Act Session Unit := do
  let _ ← evaluate Decoder.bool (Script.action l body)

/-- Scrolls an element into view and measures it. -/
def measure (l : Locator) : Act Session Box := evaluate Box.decode (Script.withElement l Script.box)

def point (does : Pointer) (at_ : Binary64 × Binary64) : Act Session Unit :=
  tell (.pointer does at_.1 at_.2)

/-- Clicks the centre of an element that has an area and is not covered there. A forced click is a
call in the page. -/
def click (l : Locator) (force : Bool) : Act Session Unit := do
  if force then
    perform l Script.click
  else
    let bounds ← measure l
    unless bounds.hasArea do throw (.session (.invisible l))
    unless ← evaluate Decoder.bool (Script.withElement l Script.hit) do
      throw (.session (.covered l))
    point .move bounds.centre
    point .press bounds.centre
    point .release bounds.centre

/-- The key goes down and up again; a chord is read only after the element has the focus. -/
def press (l : Option Locator) (chord : String) : Act Session Unit := do
  match l with
  | some l => perform l Script.focus
  | none => pure ()
  match KeyStroke.parse chord with
  | .error m => throw (.mistake m)
  | .ok stroke =>
    tell (.keyDown stroke)
    tell (.keyUp stroke)

def choiceJson : Choice → Json
  | .values vs => .obj [("values", .ofStrings vs)]
  | .labels ls => .obj [("labels", .ofStrings ls)]
  | .indexes is => .obj [("indexes", .arr (is.map fun (i : Nat) => .int i))]

/-- Files go into an input by the name under which the browser keeps it. -/
def attachFiles (l : Locator) (paths : List String) : Act Session Unit := do
  let script := Script.withElement l Script.handle
  let outcome ← understood (Outcome.decode (← request (.hold script)))
  match outcome.thrown, (outcome.object.field? "objectId").bind Json.str? with
  | some text, _ => throw (.session (.reported text))
  | none, none => throw (.session (.noElement l))
  | none, some input => tell (.putFiles paths input)

/-! ## The page -/

/-- A length of time in milliseconds, in the unit that suits it. -/
def span (ms : Nat) : String :=
  if ms = 0 then "0ns"
  else if ms < 1000 then s!"{ms}ms"
  else
    let thousandths := [ms / 100 % 10, ms / 10 % 10, ms % 10].map Nat.digitChar
    let shown := (thousandths.reverse.dropWhile (· = '0')).reverse
    if shown.isEmpty then s!"{ms / 1000}s" else s!"{ms / 1000}.{String.ofList shown}s"

/-- A browser that replies at all goes to the location, whatever it replies. -/
def navigate (url : String) : Act Session Unit := do
  let s ← get
  let reply ← exchange (.navigate url s.tab.frame)
  match reply with
  | .silence => throw (.navigation url s!"timed out after {span s.config.timeout}")
  | .failure code text =>
    modify fun s => { s with url := url }
    throw (.navigation url (SessionFault.refused code text).message)
  | .result data =>
    modify fun s => { s with url := url }
    match data.field? "errorText" with
    | some (.str reason) => throw (.navigation url reason)
    | _ => return

def scrollPage : PageScroll → Act Session Unit
  | .top => do let _ ← evaluate Decoder.bool Script.scrollTop
  | .bottom => do let _ ← evaluate Decoder.bool Script.scrollBottom
  | .point x y behavior => do
    let coordinate (c : Option Binary64) : Json := .ofOption (c.map .float)
    let _ ← evaluate Decoder.bool (Script.scrollTo (coordinate x) (coordinate y) behavior.word)

/-- Two numbers, written as a list. -/
def pair : Decoder (Binary64 × Binary64)
  | .arr xs => do
    let numbers ← (xs.take 2).mapM Decoder.double
    match numbers with
    | [a, b] =>
      if 2 < xs.length then throw (.length xs.length "fewer elements in array")
      return (a, b)
    | _ => throw (.length xs.length "a tuple of size 2")
  | v => throw (.wrongType v "a tuple of size 2")

/-- The size of the whole page. -/
def pageSize (layout : Json) : Except Misfit (Binary64 × Binary64) := do
  let content ← Decoder.required "cssContentSize" (layout.field? "cssContentSize")
  let width ← Decoder.required "width" (content.field? "width")
  let height ← Decoder.required "height" (content.field? "height")
  return (← Decoder.double width, ← Decoder.double height)

/-- The whole part of a number, within 64 bits. -/
def wholePart (x : Binary64) : Int := max leastInt64 (min greatestInt64 x.truncated)

/-- Makes the window as large as the page, and yields the box of the page. -/
def wholePage : Act Session (Option Box) := do
  let (width, height) ← understood (pageSize (← request .layout))
  tell (.resize (wholePart width) (wholePart height))
  return some ⟨.ofFloat 0.0, .ofFloat 0.0, width, height⟩

/-- A picture of a part of the tab, of all that is shown, or of the whole page. -/
def picture (clip : Option Box) (fullPage : Bool) : Act Session (List UInt8) := do
  tell (.activate (← get).tab.target)
  let clip ← if fullPage then wholePage else pure clip
  let shot ← request (.capture clip)
  if fullPage then tell .restoreSize
  let data ← understood (Decoder.required "data" (shot.field? "data") >>= Decoder.string)
  match Text.Base64.decode? data.toList with
  | some bytes => return bytes
  | none => throw (.session (.reported "Invalid base64 data"))

/-- A clip of an element is in the coordinates of the page, so it moves with the scrolling. -/
def screenshot (l : Option Locator) (fullPage : Bool) : Act Session (List UInt8) := do
  match l with
  | none => picture none fullPage
  | some l =>
    let bounds ← measure l
    let (dx, dy) ← evaluate pair Script.scrolled
    picture (some (bounds.moved dx dy)) false

/-! ## Requests and responses -/

/-- The command that answers a paused request, as the rules stand now. -/
def answerTo (routes : Network.RouteTable) (paused url : String) : Command :=
  match (routes.find? url).map Network.Rule.action with
  | some (.fulfill response) => .fulfill paused response
  | some (.abort reason) => .refuse paused reason
  | none => .proceed paused

/-- Takes notice of a report: a paused request is answered if somebody attends, and whatever the
browser replies to the answer is of no account. -/
def notice : Event → Act Session Unit
  | .paused paused url => do
    let s ← get
    match s.interception with
    | .attended => let _ ← exchange (answerTo s.routes paused url)
    | _ => return
  | _ => return

/-- Asks for requests to be paused, once. -/
def intercept : Act Session Unit := do
  match (← get).interception with
  | .untried =>
    modify fun s => { s with interception := .unattended }
    tell .pauseRequests
    modify fun s => { s with interception := .attended }
  | _ => return

/-- A status beyond sixteen bits counts as 0. -/
def statusOf (status : Int) : Nat := if 0 ≤ status ∧ status < twoTo 16 then status.toNat else 0

/-- The first reported response whose URL and status fit, and the request it belongs to. -/
def firstResponse (m : Network.Matcher) : List Event → Option (String × Network.Response)
  | [] => none
  | .response request url status :: rest =>
    if m.admitsHead url (statusOf status) then some (request, ⟨url, statusOf status, none⟩)
    else firstResponse m rest
  | _ :: rest => firstResponse m rest

/-- A body as it is sent: the text itself, or its bytes. -/
structure SentBody where
  body : Option String
  encoded : Option Bool

def SentBody.slots : List (Decoder.Slot SentBody) :=
  [.of "body" Decoder.string fun v s => { s with body := some v },
    .of "base64Encoded" Decoder.bool fun v s => { s with encoded := some v }]

/-- The text of a sent body; none if its bytes cannot be read. -/
def SentBody.text (data : Json) : Except Misfit (Option String) := do
  let sent ← Decoder.record "GetResponseBodyReturns" slots ⟨none, none⟩ data
  let body ← Decoder.required "body" sent.body
  if ← Decoder.required "base64Encoded" sent.encoded then
    return (Text.Base64.decode? body.toList).map Text.utf8Lossy
  else return some body

/-- Asks for the body of a response, some times at most. -/
def bodyOf (request : String) : Nat → Act Session (Option String)
  | 0 => return none
  | tries + 1 => do
    match ← exchange (.bodyOf request) with
    | .result data =>
      match SentBody.text data with
      | .ok body => return body
      | .error _ => bodyOf request tries
    | _ => bodyOf request tries

/-- Awaits a response. Its body is asked for, if the condition needs it, when it has come or when
the time is up. -/
def awaitResponse (m : Network.Matcher) (timeout : Nat) : Act Session Network.Response := do
  let reports := (← get).reports
  modify fun s => { s with reports := [] }
  reports.forM notice
  match firstResponse m reports with
  | none => throw (.timeout timeout m)
  | some (request, response) =>
    if m.needsBody then return { response with body := ← bodyOf request 10 }
    else return response

/-- Nobody answers paused requests any more, even if the browser refuses to close. -/
def close : Act Session Unit := do
  modify fun s => match s.interception with
    | .attended => { s with interception := .unattended }
    | _ => s
  tell .closePage
  tell .closeBrowser

/-- The text that a script on the first element of a locator yields. -/
def textBy (l : Locator) (body : String) : Act Session String :=
  evaluate Decoder.string (Script.withElement l body)

instance : Browser Session where
  start := return
  navigate := navigate
  currentUrl := return (← get).url
  count l := evaluate Decoder.size (Script.count l)
  click := click
  hover l := do point .move (← measure l).centre
  fill l text := perform l (Script.fill text)
  typeText l text _ := do
    perform l Script.focus
    text.toList.forM fun c => tell (.insertText (.ofList [c]))
  press := press
  setChecked l checked := perform l (Script.setChecked checked)
  selectOptions l choice :=
    evaluate (Decoder.list Decoder.string)
      (Script.withElement l (Script.select (choiceJson choice)))
  attachFiles := attachFiles
  textContent l := return some (← textBy l Script.text)
  inputValue l := textBy l Script.value
  attributeOf l name := return some (← textBy l (Script.attr name))
  tagName l := textBy l Script.tag
  fileCount l := evaluate Decoder.size (Script.withElement l Script.files)
  isVisible l := evaluate Decoder.bool (Script.withElements l Script.visible)
  scrollIntoView l := perform l Script.centre
  scrollPage := scrollPage
  screenshot := screenshot
  pageText := evaluate Decoder.string Script.pageText
  awaitResponse := awaitResponse
  route rule := do
    modify fun s => { s with routes := s.routes.add rule }
    intercept
  unroute source := modify fun s => { s with routes := (s.routes.remove source).1 }
  close := close

end Session
end PageSpec.DevTools
