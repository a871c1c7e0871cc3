import PageSpec.Json.Value
import PageSpec.Network.Route
import PageSpec.Text.Utf8
/-!
Responses, matchers and what is done with a request, written as JSON. Their fields are read leniently:
one that is missing, or that holds a value of another kind, counts as not given.
-/

/-! ## Fields -/

namespace PageSpec.Json.Lenient

/-- The value of a field; none is null. -/
def get (v : Json) (name : String) : Json := (v.field? name).getD .null

/-- The value of a field that is neither missing nor null. -/
def given? (v : Json) (name : String) : Option Json :=
  match v.field? name with
  | some .null => none
  | r => r

def str? (v : Json) (name : String) : Option String := (v.field? name).bind Json.str?
def str (v : Json) (name : String) : String := (str? v name).getD ""

def bool? (v : Json) (name : String) : Option Bool :=
  match v.field? name with
  | some (.bool b) => some b
  | _ => none
def bool (v : Json) (name : String) : Bool := (bool? v name).getD false

def int? (v : Json) (name : String) : Option Int :=
  match v.field? name with
  | some (.int n) => some n
  | _ => none

/-- A number that counts something. -/
def nat? (v : Json) (name : String) : Option Nat :=
  match int? v name with
  | some n => if 0 ≤ n then some n.toNat else none
  | none => none

def list (v : Json) (name : String) : List Json := ((v.field? name).bind Json.items?).getD []

/-- The texts of a list. -/
def strings (v : Json) (name : String) : List String := (list v name).filterMap Json.str?

def fields (v : Json) (name : String) : Fields :=
  match v.field? name with
  | some (.obj fs) => fs
  | _ => []

end PageSpec.Json.Lenient

/-! ## Traffic -/

namespace PageSpec.Network
open Json.Lenient

/-- A status that fits in two bytes. -/
def status? (v : Json) : Option Nat :=
  match v with
  | .int n => if 0 ≤ n ∧ n < 65536 then some n.toNat else none
  | _ => none

/-- A response; it is a success unless it says otherwise. -/
def Response.ofJson (v : Json) : Response :=
  ⟨str v "url", (status? (get v "status")).getD 200, str? v "body"⟩

def Response.toJson (r : Response) : Json :=
  .obj [("url", .str r.url), ("status", .int r.status), ("body", .ofOption (r.body.map .str))]

/-- A matcher; a pattern for the whole URL goes before parts of it. -/
def Matcher.ofJson (v : Json) : Matcher :=
  let base := match str? v "glob" with
    | some g => Matcher.glob g
    | none => Matcher.urlParts (strings v "url_includes")
  { base with
    statuses := (list v "statuses").filterMap status?, bodyPart := str? v "body_contains" }

/-- A prepared response: a JSON body, else a text, else none; and then what is said about it. -/
def Canned.decode (v : Json) : Canned :=
  let base := match v.field? "json", str? v "text" with
    | some j, _ => Canned.ofJson j
    | none, some t => Canned.ofText t
    | none, none => .empty
  { base with
    status := (status? (get v "status")).getD base.status
    contentType := (str? v "content_type").getD base.contentType
    headers := (list v "headers").foldl (fun hs h => match h with
      | .arr [.str k, .str w] => Headers.set hs k w
      | _ => hs) base.headers }

def Headers.toJson (hs : Headers) : Json := .obj (hs.map fun (k, w) => (k, .str w))

def Canned.toJson (c : Canned) : Json :=
  .obj [("status", .int c.status), ("headers", c.headers.toJson),
    ("effective_headers", c.effectiveHeaders.toJson), ("body", .str (Text.utf8Lossy c.body)),
    ("body_len", .int c.body.length), ("content_type", .str c.contentType)]

/-- What is done with a request; it is answered unless it is to be aborted. -/
def RouteAction.decode : Decoder RouteAction := fun v => do
  match given? v "abort" with
  | some j => return .abort (← AbortReason.decode j)
  | none => return .fulfill (.decode (get v "fulfill"))

def RouteAction.toJson : RouteAction → Json
  | .fulfill c => .obj [("fulfill", c.toJson)]
  | .abort r => .obj [("abort", .str r.word), ("message", .str r.message)]

end PageSpec.Network
