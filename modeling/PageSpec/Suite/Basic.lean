import PageSpec.Action.Basic
import PageSpec.Bag
import PageSpec.Failure
/-!
Suites: documents that have been read, with the cases of the documents they name in `before`; and
where a case starts: its own URL, or that of its document, with the tokens in it replaced. An empty
URL means the base, an absolute one stands for itself, and any other is joined onto the base.
-/
namespace PageSpec

/-- A case and where it came from. -/
structure SuiteCase where
  /-- Its name in the document. -/
  key : String
  title : String
  scenario : Scenario
  /-- The directory of the document. -/
  directory : String
  /-- The URL of the whole document. -/
  suiteUrl : Option String
  /-- The document. -/
  source : String

/-- One document. -/
structure Suite where
  path : String
  title : String
  url : Option String
  /-- Cases that come before each of the document's own. -/
  before : List SuiteCase
  cases : List SuiteCase

namespace Suite

/-- The documents that cases before come from, each once, in the order of their first case. -/
def sources (s : Suite) : List String :=
  s.before.foldl (fun seen c => if seen.contains c.source then seen else seen ++ [c.source]) []

end Suite

/-! ## Where a case starts -/

/-- How URLs are joined: what a reference comes to against a base, or why it comes to nothing. -/
abbrev Joiner := String → String → Except String String

/-- Whether a URL says itself which web server it leads to. -/
def isAbsoluteUrl (url : String) : Bool :=
  let start := (url.toList.take 8).map Char.toLower
  "http://".toList.isPrefixOf start || "https://".toList.isPrefixOf start

namespace SuiteCase

/-- The URL as it is written, if there is one. -/
def writtenUrl (c : SuiteCase) : Option String := c.scenario.url.or c.suiteUrl

/-- Where a case starts, if it says so. -/
def address (c : SuiteCase) (join : Joiner) (b : Bag) (base : Option String) :
    Except Failure (Option String) :=
  match c.writtenUrl with
  | none => .ok none
  | some written =>
    let url := Text.trim (interpolate b written)
    if url = "" then
      match base with
      | some u => .ok (some u)
      | none => .error (.noBaseUrl c.title)
    else if isAbsoluteUrl url then .ok (some url)
    else
      match base with
      | none => .error (.invalidUrl c.title url .noBase)
      | some u =>
        match join u url with
        | .ok joined => .ok (some joined)
        | .error reason => .error (.invalidUrl c.title url (.unreadable reason))

end SuiteCase
end PageSpec
