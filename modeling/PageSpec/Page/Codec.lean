import PageSpec.Network.Codec
import PageSpec.Page.Session
/-!
Pages in memory that are written as JSON: the tree of elements, the location, and the responses that
wait to be read.
-/
namespace PageSpec.Page
open Json.Lenient

def Traits.ofJson (v : Json) : Traits :=
  { Traits.ofTag (str v "tag") with
    id := str? v "id", classes := strings v "class"
    attrs := (fields v "attrs").filterMap fun (k, w) => w.str?.map fun t => (k, t)
    text := str v "text", hidden := bool v "hidden", covered := bool v "blocks_click"
    navigatesTo := str? v "navigates_to" }

/-- An element with what is at most `n` levels below it. A field `frame` embeds a document, whatever
it holds. -/
def Element.ofJsonUpTo : Nat → Json → Element
  | 0, v => .mk (.ofJson v) ⟨str v "value", bool v "checked", 0⟩ none []
  | n + 1, v =>
    .mk (.ofJson v) ⟨str v "value", bool v "checked", 0⟩
      ((v.field? "frame").map fun d => (d.items?.getD []).map (Element.ofJsonUpTo n))
      ((list v "children").map (Element.ofJsonUpTo n))

/-- Every level of elements is two levels of JSON. -/
def Element.ofJson (v : Json) : Element := .ofJsonUpTo v.depth v

def ofJson (v : Json) : Page :=
  let p := Page.ofDocument ((list v "dom").map Element.ofJson)
  let p := { p with url := (str? v "page_url").getD p.url }
  ((list v "responses").map Network.Response.ofJson).foldl receive p

end PageSpec.Page
