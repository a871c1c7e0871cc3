import PageSpec.Text.Blank
import PageSpec.Text.Find
/-!
Targets. A target is written as one text: a structural selector (`#email`, `form .submit`), the
visible text of an element (`Sign in`), or a tag with a part of its text (`button > Save`). The text
is classified once, and everything after works on the classified form.
-/
namespace PageSpec

/-- What a target text stands for. -/
inductive Target where
  /-- A selector matched among the descendants of the scope. -/
  | selector (text : String)
  /-- Elements of a tag whose visible text contains a text. -/
  | tagText (tag text : String)
  /-- Elements whose visible text is exactly this. -/
  | text (text : String)
  deriving DecidableEq, Repr

namespace Target

def isSelector : Target → Bool
  | .selector _ => true
  | _ => false

/-- The mark that makes the rest of a text a selector. -/
def selectorMark : List Char := ['c', 's', 's', ':']

/-- Markup and drawing element names that count as selectors on their own. -/
def knownTags : List String := [
  "a", "abbr", "address", "article", "aside", "audio", "b", "base", "bdi", "bdo",
  "blockquote", "body", "br", "button", "canvas", "caption", "cite", "code", "col",
  "colgroup", "data", "datalist", "dd", "del", "details", "dfn", "dialog", "div", "dl",
  "dt", "em", "embed", "fieldset", "figcaption", "figure", "footer", "form", "h1", "h2",
  "h3", "h4", "h5", "h6", "head", "header", "hr", "html", "i", "iframe", "img", "input",
  "ins", "kbd", "label", "legend", "li", "link", "main", "map", "mark", "meta", "meter",
  "nav", "noscript", "object", "ol", "optgroup", "option", "output", "p", "picture",
  "pre", "progress", "q", "rp", "rt", "ruby", "s", "samp", "script", "section",
  "select", "slot", "small", "source", "span", "strong", "style", "sub", "summary",
  "sup", "table", "tbody", "td", "template", "textarea", "tfoot", "th", "thead",
  "time", "title", "tr", "track", "u", "ul", "var", "video", "wbr", "svg", "path", "g",
  "circle", "rect", "polygon", "line", "polyline", "text"]

def isTagChar (c : Char) : Bool := Text.isAsciiAlnum c || c == '-'
/-- A letter followed by letters, digits and hyphens. -/
def isTagName : List Char → Bool
  | [] => false
  | c :: cs => Text.isAsciiLetter c && cs.all isTagChar

/-- Characters that start a selector. -/
def leadingSigns : List Char := ['#', '.', '[', ']', '>', '+', '~']
/-- Characters that join the parts of a selector. -/
def joiners : List Char := ['>', '+', '~']

/-- A colon after a name, a bracket or nothing and before a letter or hyphen; `before` is the
character to the left, if any. -/
def hasPseudoClass (before : Option Char) : List Char → Bool
  | [] => false
  | c :: cs =>
    let preceded := match before with
      | none => true
      | some p => Text.isAsciiAlnum p || p == ')' || p == ']'
    let followed := match cs with
      | n :: _ => Text.isAsciiLetter n || n == '-'
      | [] => false
    (c == ':' && preceded && followed) || hasPseudoClass (some c) cs

/-- A tag name that runs directly into an id, a class or an attribute. -/
def hasQualifiedTag (cs : List Char) : Bool :=
  match cs with
  | [] => false
  | c :: _ =>
    Text.isAsciiLetter c &&
      match cs.dropWhile isTagChar with
      | '#' :: n :: _ => Text.isAsciiAlnum n || n == '_' || n == '-'
      | '.' :: n :: _ => Text.isAsciiAlnum n || n == '_' || n == '-'
      | '[' :: _ :: rest => rest.contains ']'
      | _ => false

/-- Whether a trimmed text reads as a selector. -/
def readsAsSelector (t : List Char) : Bool :=
  !t.isEmpty &&
    ((Text.after? selectorMark t).isSome || knownTags.contains (.ofList t) ||
      leadingSigns.any (t.head? == some ·) || joiners.any t.contains ||
      hasPseudoClass none t || hasQualifiedTag t)

/-- `tag > text`, unless the right side is itself a selector. -/
def splitTagText (t : List Char) : Option (String × String) :=
  match Text.splitOnce '>' t with
  | none => none
  | some (l, r) =>
    let tag := Text.trimChars l
    let part := Text.trimChars r
    if !isTagName tag || part.isEmpty || readsAsSelector part then none
    else some (.ofList (tag.map Char.toLower), .ofList part)

/-- The classified form of a target text. -/
def classify (raw : String) : Target :=
  let t := Text.trimChars raw.toList
  match Text.after? selectorMark t with
  | some rest => .selector (.ofList (Text.trimChars rest))
  | none =>
    match splitTagText t with
    | some (tag, part) => .tagText tag part
    | none => if readsAsSelector t then .selector (.ofList t) else .text (.ofList t)

end Target

/-- Whether a text reads as a selector. -/
def isSelectorText (raw : String) : Bool := Target.readsAsSelector (Text.trimChars raw.toList)

end PageSpec
