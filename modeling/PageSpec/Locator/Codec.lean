import PageSpec.Json.Decoder
import PageSpec.Locator
/-!
Locators as JSON: the list of their steps. A step without data is its name; a step with data is an
object with the name as its only field.
-/
namespace PageSpec

namespace Step

/-- The names of the steps. -/
def names : List String := ["Frame", "Css", "Text", "TagText", "Parent", "First", "Last", "Nth"]

def toJson : Step → Json
  | .frame s => .obj [("Frame", .str s)]
  | .css s => .obj [("Css", .str s)]
  | .text t => .obj [("Text", .str t)]
  | .tagText tag part => .obj [("TagText", .obj [("tag", .str tag), ("text", .str part)])]
  | .parent => .str "Parent"
  | .first => .str "First"
  | .last => .str "Last"
  | .nth n => .obj [("Nth", .int n)]

private def tagTextSlots : List (Decoder.Slot (Option String × Option String)) :=
  [.of "tag" Decoder.string fun v s => (some v, s.2),
    .of "text" Decoder.string fun v s => (s.1, some v)]

def decode : Decoder Step := fun v => do
  let (name, data) ← Decoder.alternative names v
  match name with
  | "Frame" => return .frame (← Decoder.withData Decoder.string data)
  | "Css" => return .css (← Decoder.withData Decoder.string data)
  | "Text" => return .text (← Decoder.withData Decoder.string data)
  | "TagText" =>
    Decoder.withRecord "LocatorStep::TagText" tagTextSlots (none, none) (fun (tag, part) => do
      let tag ← Decoder.required "tag" tag
      let part ← Decoder.required "text" part
      return .tagText tag part) data
  | "Parent" => Decoder.noData .parent data
  | "First" => Decoder.noData .first data
  | "Last" => Decoder.noData .last data
  | _ => return .nth (← Decoder.withData Decoder.int64 data)

end Step

namespace Locator

def toJson (l : Locator) : Json := .arr (l.steps.map Step.toJson)
def decode : Decoder Locator := fun v => return ⟨← Decoder.list Step.decode v⟩

end Locator
end PageSpec
