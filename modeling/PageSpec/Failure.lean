import PageSpec.Decimal.Layout
import PageSpec.Json.Decoder
import PageSpec.Json.Reader
import PageSpec.Locator
import PageSpec.Network.Response
import PageSpec.Page.Selector
/-!
Failures: everything that can go wrong between reading a document and acting on a page, each with
its cause; among them is an expectation of the page that does not hold. `Failure.message` is the one
place where failures are put into words.
-/

/-! ## Expectations -/

namespace PageSpec

/-- A condition that is awaited. -/
inductive Expectation where
  | text (at_ : Locator) (expected : String)
  | textPart (at_ : Locator) (needle : String)
  | visible (at_ : Locator)
  | value (at_ : Locator) (expected : String)
  | valuePart (at_ : Locator) (needle : String)
  | url (expected : String)
  | urlPart (needle : String)
  | pageText (needle : String)
  deriving DecidableEq, Repr

def Expectation.describe : Expectation → String
  | .text l t => s!"{l.describe} to have text {Text.quote t}"
  | .textPart l t => s!"{l.describe} to contain text {Text.quote t}"
  | .visible l => s!"{l.describe} to be visible"
  | .value l t => s!"{l.describe} to have value {Text.quote t}"
  | .valuePart l t => s!"{l.describe} value to contain {Text.quote t}"
  | .url t => s!"url to be {Text.quote t}"
  | .urlPart t => s!"url to contain {Text.quote t}"
  | .pageText t => s!"page to contain text {Text.quote t}"

/-! ## Failures -/

/-- Where a target was looked for in vain. -/
inductive Stage where
  | target | root | parent | within | items
  deriving DecidableEq, Repr

def Stage.label : Stage → String
  | .target => "target"
  | .root => "root"
  | .parent => "parent"
  | .within => "within"
  | .items => "forEach items"

/-- Operations that have no target of their own to fall back on. -/
inductive TargetNeed where
  | expectValue | forEach | type | typeSlow | check | uncheck | select | upload | expectVisible
  /-- A click on the typed text, as it was written, before anything was typed. -/
  | typedClick (click : String)
  deriving DecidableEq, Repr

def TargetNeed.operation : TargetNeed → String
  | .expectValue => "expectValue"
  | .forEach => "forEach"
  | .type => "type"
  | .typeSlow => "typeSlow"
  | .check => "check"
  | .uncheck => "uncheck"
  | .select => "select"
  | .upload => "upload"
  | .expectVisible => "expectVisible"
  | .typedClick _ => "click"

def TargetNeed.hint : TargetNeed → String
  | .expectValue => "needs \x7b loc, equals|contains \x7d"
  | .forEach => "needs \"items\" selector or text"
  | .type | .typeSlow | .select => "use \"loc\" or a selector in \"click\""
  | .check | .uncheck => "use loc or a selector in click"
  | .upload => "use \"upload.loc\", \"loc\" or a selector in \"click\""
  | .expectVisible => "use a string or the object form with loc/click"
  | .typedClick click => s!"\"{click}\" used but no prior typed text"

/-- Mistakes in what a document or a caller asks for. -/
inductive Mistake where
  | climbTooFar (levels : Binary64) (limit : Nat)
  | scrollBehavior (word : String)
  | scrollWord (word : String)
  | scrollShape
  | actionShape (found : Json)
  | action (misfit : Misfit)
  | scenario (misfit : Misfit)
  | route (misfit : Misfit)
  | routeShape
  | runName (found : Json)
  | expectValueShape
  | expectUrlShape
  | expectTextShape
  | selectShape
  | waitRequestShape
  | waitResponseShape
  | argument (text : String) (fault : Json.SyntaxError)
  | dayOffset (base : String)
  | day (text : String)
  | dateRange (directive : String)
  | locale (tag : String)
  | chord (text : String)
  | modifier (name chord : String)

def Mistake.message : Mistake → String
  | .climbTooFar levels limit =>
    s!"parent index {Decimal.Layout.plain.write levels} exceeds the limit of {limit}"
  | .scrollBehavior word => s!"scrollTo behavior must be auto, smooth or instant (got '{word}')"
  | .scrollWord word => s!"scrollTo string must be \"top\" or \"bottom\" (got {Text.quote word})"
  | .scrollShape => "scrollTo object requires either \x7b to \x7d or \x7b x|y \x7d"
  | .actionShape found => s!"action must be an object, got {found.text}"
  | .action misfit => s!"invalid action: {misfit.message}"
  | .scenario misfit => s!"invalid case: {misfit.message}"
  | .route misfit => s!"invalid route: {misfit.message}"
  | .routeShape => "route needs one of: unroute, abort, url"
  | .runName found => s!"run needs a function name, got {found.text}"
  | .expectValueShape => "expectValue requires either 'equals' or 'contains'"
  | .expectUrlShape => "expectUrl needs one of: \x7b equals | contains \x7d"
  | .expectTextShape => "expectText needs one of: \x7b equals | contains \x7d"
  | .selectShape => "select needs one of: value, label, index"
  | .waitRequestShape =>
    "waitRequest.urlIncludes must be a non-empty string or list of non-empty strings"
  | .waitResponseShape => "waitResponse needs a \"url\" glob"
  | .argument text fault => s!"Invalid JSON-like argument {text}: {fault.message}"
  | .dayOffset base => s!"invalid day offset in date({base})"
  | .day text => s!"invalid date '{text}': input is out of range"
  | .dateRange directive => s!"date offset out of range in '{directive}'"
  | .locale tag => s!"unsupported locale '{tag}' (expected pt-BR or en-US)"
  | .chord text => s!"invalid key chord '{text}'"
  | .modifier name whole => s!"unknown modifier '{name}' in '{whole}'"

/-- Refusals of the file system. -/
inductive IoFault where
  | notFound | exists_ | notDirectory | isDirectory | denied | notText
  deriving DecidableEq, Repr

def IoFault.message : IoFault → String
  | .notFound => "No such file or directory (os error 2)"
  | .exists_ => "File exists (os error 17)"
  | .notDirectory => "Not a directory (os error 20)"
  | .isDirectory => "Is a directory (os error 21)"
  | .denied => "Permission denied (os error 13)"
  | .notText => "stream did not contain valid UTF-8"

/-- What is wrong with a function bag or one of its commands. -/
inductive BagFault where
  | absent
  | unreadable (path reason : String)
  | entryShape (path name : String)
  | notStarted (program : String) (fault : IoFault)
  | exited (program status stderr : String)

def BagFault.message : BagFault → String
  | .absent =>
    "this action uses \"run\" but no function bag was loaded; create help/plugin-func.yaml or " ++
      "pass a functions path"
  | .unreadable path reason => s!"{path}: {reason}"
  | .entryShape path name => s!"{path}: '{name}' needs exactly one of 'value' or 'command'"
  | .notStarted program fault => s!"failed to start '{program}': {fault.message}"
  | .exited program status stderr => s!"'{program}' exited with {status}: {stderr}"

/-- What is wrong with the content of a document. -/
inductive DocumentFault where
  | notJson (fault : Json.SyntaxError)
  | noDescription
  | beforeEntry
  | beforeShape
  | caseShape (key : String)
  | scenario (key : String) (mistake : Mistake)
  /-- An action by its number from 1. -/
  | action (key : String) (number : Nat) (mistake : Mistake)

def DocumentFault.message : DocumentFault → String
  | .notJson fault => s!"not valid JSON: {fault.message}"
  | .noDescription => "expected \x7b \"describe\": \x7b ... \x7d \x7d"
  | .beforeEntry => "'before' entries must be strings"
  | .beforeShape => "'before' must be a string or a list of strings"
  | .caseShape key => s!"case '{key}' must be an object"
  | .scenario key mistake => s!"case '{key}': Configuration error: {mistake.message}"
  | .action key number mistake => s!"{key} action #{number}: Configuration error: {mistake.message}"

/-- Why a navigation target cannot be made. -/
inductive UrlProblem where
  | noBase
  /-- What joining it onto the base says. -/
  | unreadable (reason : String)
  deriving DecidableEq, Repr

def UrlProblem.message : UrlProblem → String
  | .noBase => "relative url without a baseURL"
  | .unreadable reason => reason

/-- Refusals of a browser session. -/
inductive SessionFault where
  | selector (text : String) (error : Page.SelectorError)
  | noElement (at_ : Locator)
  | clickMissed (at_ : Locator)
  | notToggle (at_ : Locator)
  | notSelect (at_ : Locator)
  | noOption (at_ : Locator)
  | invisible (at_ : Locator)
  | covered (at_ : Locator)
  /-- The browser was not started. -/
  | notLaunched (fault : IoFault)
  /-- The browser refused a command. -/
  | refused (code : Int) (text : String)
  /-- The browser never replied. -/
  | noReply
  /-- A script threw an exception. -/
  | exception (text : String)
  /-- A script has no value. -/
  | noValue
  /-- A reply is not what was asked for. -/
  | unreadable (misfit : Misfit)
  /-- A refusal in the words of the other side. -/
  | reported (text : String)

def SessionFault.message : SessionFault → String
  | .selector text error => s!"invalid selector '{text}': {error.message}"
  | .noElement l => s!"no element matches {l.describe}"
  | .clickMissed l => s!"element {l.describe} did not receive the click"
  | .notToggle l => s!"{l.describe} is not a checkbox or radio input"
  | .notSelect l => s!"{l.describe} is not a <select>"
  | .noOption l => s!"option not found in {l.describe}"
  | .invisible l => s!"{l.describe} is not visible"
  | .covered l => s!"another element would receive the click on {l.describe}"
  | .notLaunched fault => fault.message
  | .refused code text => s!"Error {code}: {text}"
  | .noReply => "Request timed out."
  | .exception text => s!"ExceptionDetails \x7b text: {Text.quote text} \x7d"
  | .noValue => "No value found"
  | .unreadable misfit => misfit.message
  | .reported text => text

/-- An assertion that did not hold. -/
inductive Unmet where
  /-- What was awaited, for how many milliseconds, and what was seen last. -/
  | expected (what : Expectation) (ms : Nat) (observed : String)
  | bodyWithout (url needle : String)
  deriving DecidableEq, Repr

def Unmet.message : Unmet → String
  | .expected what ms observed =>
    s!"expected {what.describe} within {ms}ms, last observed: {observed}"
  | .bodyWithout url needle =>
    s!"waitResponse matched {url} but body didn't contain {Text.quote needle}"

/-- Any failure. -/
inductive Failure where
  | mistake (cause : Mistake)
  /-- A position together with `first` or `last`. -/
  | invalidIndex
  | missingTarget (need : TargetNeed)
  | functionBag (cause : BagFault)
  | unknownFunction (name : String)
  | unknownGenerator (call : String)
  | beforeCycle (path : String)
  | beforeNotFound (path : String)
  | invalidDocument (path : String) (cause : DocumentFault)
  | missingDirectory (path : String)
  | noDocuments (path : String)
  | noBaseUrl (title : String)
  | invalidUrl (title url : String) (cause : UrlProblem)
  | notFound (stage : Stage) (target context : String)
  | uploadFileMissing (path : String)
  | uploadMismatch (target : String) (expected actual : Nat)
  | uploadTarget (target : String)
  | assertion (cause : Unmet)
  | timeout (ms : Nat) (awaited : Network.Matcher)
  | session (cause : SessionFault)
  | navigation (url reason : String)
  | io (cause : IoFault)

namespace Failure

def message : Failure → String
  | .mistake cause => s!"Configuration error: {cause.message}"
  | .invalidIndex => "Invalid index config: 'nth' cannot be combined with 'first' or 'last'"
  | .missingTarget need => s!"{need.operation} requires a target: {need.hint}"
  | .functionBag cause => s!"Function bag unavailable: {cause.message}"
  | .unknownFunction name => s!"Function bag does not have a method named '{name}'"
  | .unknownGenerator call => s!"Invalid dynamic function path: {call}"
  | .beforeCycle path => s!"Cycle detected in 'before': {path}"
  | .beforeNotFound path => s!"'before' file not found: {path}"
  | .invalidDocument path cause => s!"Invalid specification document {path}: {cause.message}"
  | .missingDirectory path => s!"Specification directory not found: {path}"
  | .noDocuments path => s!"No specification documents found in {path}"
  | .noBaseUrl title => s!"No baseURL to open when url is empty in \"{title}\""
  | .invalidUrl title url cause => s!"Invalid URL '{url}' in \"{title}\": {cause.message}"
  | .notFound stage target context => s!"{stage.label} not found: \"{target}\"{context}"
  | .uploadFileMissing path => s!"Upload file not found: {path}"
  | .uploadMismatch target expected actual =>
    s!"Upload mismatch on \"{target}\": expected {expected} file(s), input holds {actual}"
  | .uploadTarget target => s!"Upload target \"{target}\" is not an input[type=file]"
  | .assertion cause => s!"Assertion failed: {cause.message}"
  | .timeout ms awaited => s!"Timed out after {ms}ms waiting for {awaited.describe}"
  | .session cause => s!"Driver error: {cause.message}"
  | .navigation url reason => s!"Navigation to {url} failed: {reason}"
  | .io cause => s!"IO error: {cause.message}"

/-- Whether the documents or the settings are at fault, and not the page. -/
def isConfig : Failure → Bool
  | .mistake _ | .invalidIndex | .missingTarget _ | .functionBag _ | .unknownFunction _
  | .unknownGenerator _ | .beforeCycle _ | .beforeNotFound _ | .invalidDocument _ _
  | .missingDirectory _ | .noDocuments _ | .noBaseUrl _ | .invalidUrl _ _ _ => true
  | _ => false

end Failure
end PageSpec
