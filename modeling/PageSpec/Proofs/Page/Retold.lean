import PageSpec.Proofs.Page.Standing
/-!
Changes of texts that cannot be seen. A forest is told again with other texts for nodes that are hidden or lie
below a hidden one; its shape stays, and with it all views of it but the texts. Among the documents that tell
a document again are those in which every hidden element has one and the same text.
-/
namespace PageSpec.Page

/-! ## Telling again -/

/-- The traits with another text. -/
def Traits.retext (t : Traits) (text : String) : Traits := { t with text := text }

/-- A forest differs from another in the texts of nodes that cannot be seen, and in nothing else. -/
def Retold (f f' : Forest) : Prop :=
  ∀ i, f'.node? i = f.node? i ∨
    ¬ f.Seen i ∧ ∃ n text, f.node? i = some n ∧ f'.node? i = some { n with traits := n.traits.retext text }

namespace Retold
variable {f f' : Forest} (told : Retold f f')
include told

/-- What does not depend on texts stays. -/
theorem look {α : Type} (g : Option Node → α)
    (textless : ∀ n text, g (some { n with traits := n.traits.retext text }) = g (some n)) (i : Nat) :
    g (f'.node? i) = g (f.node? i) := by
  rcases told i with same | ⟨_, n, text, found, found'⟩
  · rw [same]
  · rw [found, found', textless]

theorem parent_eq : f'.parent? = f.parent? :=
  funext (told.look (·.bind (·.parent)) fun _ _ => rfl)

theorem places_eq : f'.places = f.places := by
  have beyond (i : Nat) : f'.nodes.length ≤ i ↔ f.nodes.length ≤ i := by
    have same := told.look (· = none) (fun _ _ => by simp) i
    unfold Forest.node? at same
    rw [List.getElem?_eq_none_iff, List.getElem?_eq_none_iff] at same
    exact iff_of_eq same
  have below := beyond f.nodes.length
  have above := beyond f'.nodes.length
  have counted : f'.nodes.length = f.nodes.length := by omega
  exact congrArg List.range counted

theorem document_eq (d : Nat) : f'.document d = f.document d := by
  have lies := told.look (fun n? => n?.any (·.doc == d)) fun _ _ => rfl
  unfold Forest.document
  rw [told.places_eq]
  exact List.filter_congr fun i _ => lies i

theorem tops_eq (d : Nat) : f'.tops d = f.tops d := by
  unfold Forest.tops
  rw [told.document_eq, told.parent_eq]

theorem ancestors_eq (i : Nat) : f'.ancestors i = f.ancestors i := by
  have up : ∀ n i, f'.climb n i = f.climb n i := by
    intro n
    induction n with
    | zero => exact fun _ => rfl
    | succ n ih =>
      intro i
      rw [Forest.climb, Forest.climb, told.parent_eq]
      cases f.parent? i with
      | none => rfl
      | some p => exact congrArg (p :: ·) (ih p)
  exact up i i

theorem descendants_eq (i : Nat) : f'.descendants i = f.descendants i := by
  unfold Forest.descendants
  rw [told.places_eq]
  simp only [told.ancestors_eq]

/-- What can be seen has the text that it had. -/
theorem ownText_eq {i : Nat} (seen : f.Seen i) : f'.ownText i = f.ownText i := by
  rcases told i with same | ⟨unseen, _⟩
  · unfold Forest.ownText
    rw [same]
  · exact absurd seen unseen

end Retold

/-! ## Blotting -/

/-- The traits with another text if they are those of a hidden element. -/
def Traits.blot (text : String) (t : Traits) : Traits := if t.hidden then t.retext text else t

mutual
/-- The element with other traits for itself and everything it holds. -/
def Element.mapTraits (g : Traits → Traits) : Element → Element
  | .mk traits input frame children =>
    .mk (g traits) input (mapFrame g frame) (mapAll g children)
def mapAll (g : Traits → Traits) : List Element → List Element
  | [] => []
  | e :: es => e.mapTraits g :: mapAll g es
def mapFrame (g : Traits → Traits) : Option (List Element) → Option (List Element)
  | none => none
  | some es => some (mapAll g es)
end

def Node.mapTraits (g : Traits → Traits) (n : Node) : Node := { n with traits := g n.traits }

def Planting.mapTraits (g : Traits → Traits) (p : Planting) : Planting :=
  { p with nodes := p.nodes.map (·.mapTraits g) }

section
variable {g : Traits → Traits}

theorem mapFrame_isSome (frame : Option (List Element)) : (mapFrame g frame).isSome = frame.isSome := by
  cases frame <;> rfl

theorem place_map (p : Planting) (doc : Nat) (parent : Option Nat) (traits : Traits) (input : Input)
    (framed : Bool) : (p.mapTraits g).place doc parent (g traits) input framed =
      (p.place doc parent traits input framed).mapTraits g := by
  simp [Planting.place, Planting.mapTraits, Node.mapTraits]

mutual
/-- Elements with other traits are placed where they would have been placed before. -/
theorem plant_map : ∀ (e : Element) (doc : Nat) (parent : Option Nat) (p : Planting),
    plant doc parent (e.mapTraits g) (p.mapTraits g) = (plant doc parent e p).mapTraits g
  | .mk traits input frame children, doc, parent, p => by
    have length_eq : (p.mapTraits g).nodes.length = p.nodes.length := by simp [Planting.mapTraits]
    rw [Element.mapTraits, plant_mk, plant_mk, mapFrame_isSome, place_map, length_eq, plantAll_map children]
    exact plantFrame_map frame _ _
theorem plantAll_map : ∀ (es : List Element) (doc : Nat) (parent : Option Nat) (p : Planting),
    plantAll doc parent (mapAll g es) (p.mapTraits g) = (plantAll doc parent es p).mapTraits g
  | [], _, _, _ => rfl
  | e :: es, doc, parent, p => by
    rw [mapAll, plantAll, plantAll, plant_map e, plantAll_map es]
theorem plantFrame_map : ∀ (frame : Option (List Element)) (doc : Nat) (p : Planting),
    plantFrame doc (mapFrame g frame) (p.mapTraits g) = (plantFrame doc frame p).mapTraits g
  | none, _, _ => rfl
  | some es, doc, p => by
    rw [mapFrame, plantFrame, plantFrame, plantAll_map es]
end

theorem build_map (document : List Element) :
    (Forest.build (mapAll g document)).1.nodes = (Forest.build document).1.nodes.map (·.mapTraits g) :=
  congrArg Planting.nodes (plantAll_map document 0 none ⟨[], [], 1⟩)

end

/-- The document with one text for everything hidden. -/
def blotted (text : String) (document : List Element) : List Element := mapAll (Traits.blot text) document

theorem node?_blotted (text : String) (document : List Element) (i : Nat) :
    (Forest.build (blotted text document)).1.node? i =
      ((Forest.build document).1.node? i).map (Node.mapTraits (Traits.blot text)) := by
  unfold Forest.node? blotted
  rw [build_map, List.getElem?_map]

theorem blotted_retold (text : String) (document : List Element) :
    Retold (Forest.build document).1 (Forest.build (blotted text document)).1 := by
  intro i
  rw [node?_blotted]
  cases found : (Forest.build document).1.node? i with
  | none => exact .inl rfl
  | some n =>
    cases hidden : n.traits.hidden with
    | false =>
      have kept : n.traits.blot text = n.traits := by rw [Traits.blot, hidden]; rfl
      exact .inl (by rw [Option.map_some, Node.mapTraits, kept])
    | true =>
      have other : n.traits.blot text = n.traits.retext text := by rw [Traits.blot, hidden]; rfl
      refine .inr ⟨fun seen => ?_, n, text, rfl, by rw [Option.map_some, Node.mapTraits, other]⟩
      have shut : (Forest.build document).1.hidden i = true := by
        unfold Forest.hidden
        rw [found]
        exact hidden
      cases shut.symm.trans (seen i .refl)

theorem ownText_blotted (text : String) (document : List Element) (i : Nat) :
    (Forest.build (blotted text document)).1.ownText i =
      if (Forest.build document).1.hidden i then text else (Forest.build document).1.ownText i := by
  unfold Forest.ownText Forest.hidden
  rw [node?_blotted]
  cases (Forest.build document).1.node? i with
  | none => rfl
  | some n =>
    simp only [Option.map_some, Option.getD_some, Option.any_some, Node.mapTraits, Traits.blot]
    split <;> rfl

end PageSpec.Page
