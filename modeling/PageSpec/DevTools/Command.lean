import PageSpec.DevTools.Keys
import PageSpec.Network.Route
import PageSpec.Text.Base64
/-!
What is sent to a browser and what comes from it. A command has a method and parameters; parameters
that are absent are left out. The browser replies to commands and reports events.
-/
namespace PageSpec.DevTools

/-- A box on a page. -/
structure Box where
  x : Binary64
  y : Binary64
  width : Binary64
  height : Binary64
  deriving DecidableEq, Repr

namespace Box

def hasArea (b : Box) : Bool := b.width.toFloat > 0 && b.height.toFloat > 0

/-- The middle of a box. -/
def centre (b : Box) : Binary64 × Binary64 :=
  (.ofFloat (b.x.toFloat + b.width.toFloat / 2), .ofFloat (b.y.toFloat + b.height.toFloat / 2))

/-- The box moved by a distance. -/
def moved (b : Box) (dx dy : Binary64) : Box :=
  { b with x := .ofFloat (b.x.toFloat + dx.toFloat), y := .ofFloat (b.y.toFloat + dy.toFloat) }

private def slots : List (Decoder.Slot (List (String × Binary64))) :=
  ["x", "y", "width", "height"].map fun name =>
    .of name Decoder.double fun v s => s ++ [(name, v)]

private def close (found : List (String × Binary64)) : Except Misfit Box := do
  let side (name : String) : Except Misfit Binary64 := Decoder.required name (found.lookup name)
  return ⟨← side "x", ← side "y", ← side "width", ← side "height"⟩

/-- A box is written as an object or as the list of its four numbers. -/
def decode : Decoder Box
  | .arr xs => do
    let found ← Decoder.fillItems slots [] xs
    if xs.length < 4 then throw (.length xs.length "struct Rect with 4 elements")
    close found
  | v => do close (← Decoder.record "Rect" slots [] v)

def fields (b : Box) : Fields :=
  [("x", .float b.x), ("y", .float b.y), ("width", .float b.width), ("height", .float b.height)]

end Box

/-- What a mouse does at a point. -/
inductive Pointer where
  | move | press | release
  deriving DecidableEq, Repr

/-- A command to a browser. -/
inductive Command where
  /-- Evaluates a script and sends its value back. -/
  | evaluate (script : String)
  /-- Evaluates a script and keeps its value under a name. -/
  | hold (script : String)
  | pointer (does : Pointer) (x y : Binary64)
  | keyDown (stroke : KeyStroke)
  | keyUp (stroke : KeyStroke)
  | insertText (text : String)
  | navigate (url frame : String)
  /-- Puts files into an input that is kept under a name. -/
  | putFiles (paths : List String) (input : String)
  | activate (target : String)
  | layout
  | resize (width height : Int)
  | restoreSize
  | capture (clip : Option Box)
  | pauseRequests
  | fulfill (request : String) (response : Network.Canned)
  | refuse (request : String) (reason : Network.AbortReason)
  | proceed (request : String)
  | bodyOf (request : String)
  | closePage
  | closeBrowser
  deriving DecidableEq, Repr

namespace Command

def method : Command → String
  | .evaluate _ | .hold _ => "Runtime.evaluate"
  | .pointer _ _ _ => "Input.dispatchMouseEvent"
  | .keyDown _ | .keyUp _ => "Input.dispatchKeyEvent"
  | .insertText _ => "Input.insertText"
  | .navigate _ _ => "Page.navigate"
  | .putFiles _ _ => "DOM.setFileInputFiles"
  | .activate _ => "Target.activateTarget"
  | .layout => "Page.getLayoutMetrics"
  | .resize _ _ => "Emulation.setDeviceMetricsOverride"
  | .restoreSize => "Emulation.clearDeviceMetricsOverride"
  | .capture _ => "Page.captureScreenshot"
  | .pauseRequests => "Fetch.enable"
  | .fulfill _ _ => "Fetch.fulfillRequest"
  | .refuse _ _ => "Fetch.failRequest"
  | .proceed _ => "Fetch.continueRequest"
  | .bodyOf _ => "Network.getResponseBody"
  | .closePage => "Page.close"
  | .closeBrowser => "Browser.close"

private def unit : Json := .float (.ofFloat 1.0)

private def pointerFields : Pointer → Fields
  | .move => [("type", .str "mouseMoved")]
  | .press => [("type", .str "mousePressed"), ("button", .str "left"), ("clickCount", .int 1)]
  | .release => [("type", .str "mouseReleased"), ("button", .str "left"), ("clickCount", .int 1)]

private def keyFields (k : KeyStroke) : Fields :=
  [("key", .str k.key), ("code", .str k.code), ("modifiers", .int k.modifiers),
    ("windowsVirtualKeyCode", .int k.keyCode), ("nativeVirtualKeyCode", .int k.keyCode)]

/-- The parameters of a command. A key types its text when it goes down. -/
def params : Command → Fields
  | .evaluate script =>
    [("expression", .str script), ("awaitPromise", .bool true), ("returnByValue", .bool true)]
  | .hold script => [("expression", .str script), ("returnByValue", .bool false)]
  | .pointer does x y => pointerFields does ++ [("x", .float x), ("y", .float y)]
  | .keyDown k =>
    ("type", .str "keyDown") :: keyFields k ++ (k.text.map fun t => ("text", Json.str t)).toList
  | .keyUp k => ("type", .str "keyUp") :: keyFields k
  | .insertText text => [("text", .str text)]
  | .navigate url frame => [("url", .str url), ("frameId", .str frame)]
  | .putFiles paths input =>
    (if paths.isEmpty then [] else [("files", .ofStrings paths)]) ++ [("objectId", .str input)]
  | .activate target => [("targetId", .str target)]
  | .resize width height =>
    [("width", .int width), ("height", .int height), ("deviceScaleFactor", unit),
      ("mobile", .bool false)]
  | .capture clip =>
    ("format", .str "png") ::
      (clip.map fun b => ("clip", Json.obj (b.fields ++ [("scale", unit)]))).toList
  | .fulfill request r =>
    [("requestId", .str request), ("responseCode", .int r.status),
      ("responseHeaders", .arr (r.effectiveHeaders.map fun (k, v) =>
        .obj [("name", .str k), ("value", .str v)])),
      ("body", .str (.ofList (Text.Base64.encode r.body)))]
  | .refuse request reason =>
    [("requestId", .str request), ("errorReason", .str reason.protocolWord)]
  | .proceed request | .bodyOf request => [("requestId", .str request)]
  | .layout | .restoreSize | .pauseRequests | .closePage | .closeBrowser => []

end Command

/-- What a browser replies to a command. -/
inductive Reply where
  | result (data : Json)
  | failure (code : Int) (text : String)
  /-- No reply ever comes. -/
  | silence

/-- What a browser reports by itself. -/
inductive Event where
  /-- The head of a response has come. -/
  | response (request url : String) (status : Int)
  /-- The body of a response has come. -/
  | finished (request : String)
  /-- A request waits to be answered. -/
  | paused (request url : String)
  deriving DecidableEq, Repr

end PageSpec.DevTools
