import PageSpec.Network.Glob
import PageSpec.Json.Printer
import PageSpec.Text.Quoted
/-!
Responses: those a page has received, the conditions a wait puts on them, and the canned ones that
answer intercepted requests.
-/
namespace PageSpec.Network

/-- A response that the page has received; the body is there if it was read. -/
structure Response where
  url : String
  status : Nat
  body : Option String
  deriving DecidableEq, Repr

/-- A condition on responses: one of the URL patterns, one of the statuses unless there are none,
and a text in the body if one is given. -/
structure Matcher where
  urls : List UrlPattern
  statuses : List Nat
  bodyPart : Option String
  deriving DecidableEq, Repr

namespace Matcher

/-- Any URL that contains one of the texts. -/
def urlParts (parts : List String) : Matcher := ⟨parts.map .part, [], none⟩
/-- URLs that a glob admits. -/
def glob (pattern : String) : Matcher := ⟨[.glob (.ofString pattern)], [], none⟩

/-- The condition on URL and status alone. -/
def admitsHead (m : Matcher) (url : String) (status : Nat) : Bool :=
  m.urls.any (·.admits url) && (m.statuses.isEmpty || m.statuses.contains status)

/-- Whether the body has to be read. -/
def needsBody (m : Matcher) : Bool := m.bodyPart.isSome

/-- The whole condition; a body that was not read contains nothing. -/
def admits (m : Matcher) (r : Response) : Bool :=
  m.admitsHead r.url r.status &&
    match m.bodyPart with
    | none => true
    | some needle => r.body.any (Text.has · needle)

def describe (m : Matcher) : String :=
  let urls := ", ".intercalate (m.urls.map UrlPattern.describe)
  let status :=
    if m.statuses.isEmpty then ""
    else " status in [" ++ ", ".intercalate (m.statuses.map toString) ++ "]"
  let body := match m.bodyPart with
    | none => ""
    | some needle => s!" body containing {Text.quote needle}"
  s!"response [{urls}]{status}{body}"

end Matcher

/-- Headers, sorted by name, one value a name. -/
abbrev Headers := List (String × String)

/-- Writes a header, keeping the names sorted. -/
def Headers.set : Headers → String → String → Headers
  | [], k, v => [(k, v)]
  | (n, old) :: rest, k, v =>
    if k < n then (k, v) :: (n, old) :: rest
    else if k = n then (k, v) :: rest
    else (n, old) :: Headers.set rest k v

/-- A response made up for an intercepted request. -/
structure Canned where
  status : Nat
  headers : Headers
  body : List UInt8
  contentType : String
  deriving DecidableEq, Repr

namespace Canned

def empty : Canned := ⟨200, [], [], "text/plain"⟩
def ofText (text : String) : Canned := { empty with body := text.toUTF8.toList }
def ofJson (v : Json) : Canned :=
  { empty with body := v.text.toUTF8.toList, contentType := "application/json" }

/-- The headers with a content type, unless one is set in any letter case. -/
def effectiveHeaders (c : Canned) : Headers :=
  if c.headers.any (fun h => Text.asciiLower h.1 == "content-type") then c.headers
  else Headers.set c.headers "content-type" c.contentType

end Canned
end PageSpec.Network
