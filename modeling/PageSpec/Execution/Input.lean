import PageSpec.Execution.Basic
/-!
Operations on elements: reading, typing, clicking, choosing, attaching files, scrolling and taking
pictures. An operation without a target of its own takes the explicit target of its action.
-/
namespace PageSpec

/-- The text before a placeholder for the typed text, if the click ends in one. -/
def typedPrefix? (click : String) : Option String :=
  (Text.after? "\x7btype\x7d".toList.reverse click.toList.reverse).map fun rest =>
    Text.trim (.ofList rest.reverse)

/-- The options that are asked for: values before labels, labels before positions. -/
def SelectSpec.choice (s : SelectSpec) : Except Failure Choice :=
  match s.value, s.label, s.index with
  | some vs, _, _ => .ok (.values vs.toList)
  | none, some ls, _ => .ok (.labels ls.toList)
  | none, none, some is => .ok (.indexes is.toList)
  | none, none, none => .error (.mistake .selectShape)

namespace Exec
variable {σ : Type} [Browser σ]

/-- The first target that is there. -/
def target (candidates : List (Option String)) (need : TargetNeed) : Exec σ String :=
  match candidates.findSome? id with
  | some t => return t
  | none => throw (.missingTarget need)

/-! ## Reading and typing -/

def getText (aim : Aim) (raw : String) : Exec σ Unit := do
  let l ← aim.one (Text.trim raw)
  let text ← onSession (Browser.textContent l)
  store gotKey (match text with
    | some t => .str t
    | none => .null)
  modify fun r => { r with memo := { r.memo with got := text } }

/-- Remembers what was typed. -/
def typed (text : String) : Exec σ Unit := do
  store typedKey (.str text)
  modify fun r => { r with memo := { r.memo with typed := some text } }

/-- Types a text, slowly if `typeSlow` gives it. The dynamic text is made up before the target is
looked for. -/
def type (c : Setting) (aim : Aim) (a : Action) : Exec σ Unit := do
  match a.typeSlow, a.type with
  | some raw, _ =>
    let text ← onSource (Dynamic.resolve c.options raw)
    let l ← aim.one (← target [a.explicitTarget] .typeSlow)
    onSession (Browser.fill l "")
    onSession (Browser.typeText l text c.settings.slowDelay)
    typed text
  | none, some raw =>
    let text ← onSource (Dynamic.resolve c.options raw)
    let l ← aim.one (← target [a.explicitTarget] .type)
    onSession (Browser.fill l text)
    typed text
  | none, none => return

/-! ## Clicking and pressing -/

/-- The element that a click means. A placeholder at the end stands for the text typed last. -/
def clickTarget (aim : Aim) (click : String) : Exec σ Locator := do
  match typedPrefix? click with
  | none => aim.one click
  | some before =>
    match (← get).memo.typed.filter (· ≠ "") with
    | none => throw (.missingTarget (.typedClick click))
    | some text =>
      if before = "" then aim.one text
      else
        let pick ← lift aim.hints.pick
        let l := ((aim.scope.allOf before).text text).pick pick
        onSession (ensureFound l .target s!"{before} {text}" aim.hints)
        return l

/-- A click that fails is tried once more by force. -/
def click (aim : Aim) (raw : String) : Exec σ Unit := do
  let l ← clickTarget aim (Text.trim raw)
  onSession (tryCatch (Browser.click l false) fun _ => Browser.click l true)

def hover (aim : Aim) (raw : String) : Exec σ Unit := do
  let l ← aim.one (Text.trim raw)
  onSession (Browser.hover l)

def press (aim : Aim) (a : Action) (chord : String) : Exec σ Unit := do
  match a.explicitTarget with
  | some t =>
    let l ← aim.one t
    onSession (Browser.press (some l) chord)
  | none => onSession (Browser.press none chord)

/-! ## Choosing -/

def setChecked (c : Setting) (aim : Aim) (a : Action) (spec : CheckTarget) (checked : Bool) :
    Exec σ Unit := do
  let t ← target [spec.text?, a.explicitTarget, c.context.bind (·.target)]
    (if checked then .check else .uncheck)
  let l ← aim.one t
  onSession (Browser.setChecked l checked)

def select (aim : Aim) (a : Action) (spec : SelectSpec) : Exec σ Unit := do
  let t ← target [spec.loc, a.explicitTarget] .select
  let choice ← lift spec.choice
  let l ← aim.one t
  let _ ← onSession (Browser.selectOptions l choice)

/-- Attaches files that are there to a file input, which has to hold them all afterwards. -/
def upload (c : Setting) (aim : Aim) (a : Action) (spec : UploadSpec) : Exec σ Unit := do
  let t ← target [spec.loc, a.explicitTarget] .upload
  let l ← aim.one t
  let tag ← onSession (Browser.tagName l)
  let kind ← onSession (Browser.attributeOf l "type")
  if !(Text.asciiLower tag == "input" && kind.map Text.lower == some "file") then
    throw (.uploadTarget t)
  let paths := spec.names.map (Path.join c.directory)
  let files := (← get).files
  forSome (paths.find? (!files.exists_ ·)) fun p => throw (.uploadFileMissing p)
  onSession (Browser.attachFiles l paths)
  let actual ← onSession (Browser.fileCount l)
  if actual ≠ paths.length then throw (.uploadMismatch t paths.length actual)

/-! ## Scrolling and pictures -/

def scrollTo (aim : Aim) (spec : ScrollSpec) : Exec σ Unit := do
  match spec with
  | .named word =>
    match Text.lower (Text.trim word) with
    | "top" => onSession (Browser.scrollPage .top)
    | "bottom" => onSession (Browser.scrollPage .bottom)
    | other => throw (.mistake (.scrollWord other))
  | .object x y behavior goal =>
    if x.isSome || y.isSome then
      let b ← match behavior with
        | some w => lift (ScrollBehavior.parse w)
        | none => pure .auto
      onSession (Browser.scrollPage (.point x y b))
    else match goal with
      | some t =>
        let l ← aim.one (Text.trim t)
        onSession (Browser.scrollIntoView l)
      | none => throw (.mistake .scrollShape)

/-- Saves a picture at a path, in directories that are made for it. -/
def save (path : String) (bytes : List UInt8) : Exec σ Unit := do
  let put (r : Except IoFault Files) : Exec σ Unit :=
    match r with
    | .ok files => modify fun r => { r with files := files }
    | .error e => throw (.io e)
  forSome ((Path.parent? path).filter (· ≠ "")) fun dir => do
    put ((← get).files.makeDirectories dir)
  put ((← get).files.write path (.picture bytes))

def screenshot (aim : Aim) (a : Action) (spec : ScreenshotSpec) : Exec σ Unit := do
  let bytes ← match spec.loc.or a.explicitTarget with
    | some t =>
      let l ← aim.one t
      onSession (Browser.screenshot (some l) false)
    | none => onSession (Browser.screenshot none spec.fullPage)
  forSome (spec.path.bind nonBlank?) fun path => save path bytes

end Exec
end PageSpec
