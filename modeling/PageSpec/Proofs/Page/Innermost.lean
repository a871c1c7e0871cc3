import PageSpec.Proofs.Page.Scoping
/-!
Searching for a text. The deepest elements with a text are picked in each part of a scope by itself, and the
parts may lie in one another. Since a part holds everything below what it holds, no other part can tell
differently of an element: what is found is innermost on the whole page.
-/
namespace PageSpec.Page

/-! ## Texts -/

namespace Forest
variable {f : Forest}

/-- There is one way through some nodes. -/
theorem Walk.unique {is ls ms : List Nat} (way : Walk f is ls) (other : Walk f is ms) : ls = ms := by
  induction way generalizing ms with
  | finished => cases other; rfl
  | node down on ihDown ihOn =>
    cases other with
    | node down' on' => rw [ihDown down', ihOn on']

theorem Walk.through {i : Nat} {ls : List Nat} (way : Walk f [i] (i :: ls)) : Walk f (f.children i) ls := by
  cases way with
  | node down on =>
    cases on
    rwa [List.append_nil]

namespace Ordered
variable (ordered : f.Ordered)
include ordered

/-- The way through some nodes that are there is each of them and what lies below it. -/
theorem walk_flatMap : ∀ {is : List Nat}, (∀ i ∈ is, i < f.nodes.length) →
    Walk f is (is.flatMap fun i => i :: f.descendants i)
  | [], _ => .finished
  | i :: is, there => by
    rw [List.flatMap_cons, ← List.singleton_append (x := i) (l := is)]
    exact (ordered.descendants_walk (there i List.mem_cons_self)).append
      (walk_flatMap fun j member => there j (List.mem_cons_of_mem i member))

theorem descendants_eq_flatMap {i : Nat} (there : i < f.nodes.length) :
    f.descendants i = (f.children i).flatMap fun c => c :: f.descendants c := by
  have below : Walk f (f.children i) (f.descendants i) := (ordered.descendants_walk there).through
  exact below.unique (ordered.walk_flatMap fun c child => (mem_children.mp child).lt)

/-- The text of an element is its own, followed by the texts of its children in order. -/
theorem text_eq_join {i : Nat} (there : i < f.nodes.length) :
    f.text i = f.ownText i ++ String.join ((f.children i).map f.text) := by
  apply String.toList_inj.mp
  unfold text
  rw [ordered.descendants_eq_flatMap there]
  simp [String.toList_join, List.flatMap_assoc, List.flatMap_map]

end Ordered
end Forest

/-! ## Parts of a scope -/

/-- A place lies in one of the documents of a scope, or properly below one of its elements. -/
def Scope.Encloses (f : Forest) : Scope → Nat → Prop
  | .documents ds, i => ∃ d ∈ ds, f.LiesIn d i
  | .elements es, i => ∃ e ∈ es, f.Below e i

/-- An element has a text that nothing below it has. -/
def Innermost (f : Forest) (t : String) (i : Nat) : Prop :=
  f.plainText i = t ∧ ∀ j, f.Below i j → f.plainText j ≠ t

section
variable {f : Forest} {sc : Scope} {t : String} {i j : Nat}

theorem Scope.Encloses.place (enclosed : sc.Encloses f i) : i ∈ f.places := by
  cases sc with
  | documents ds =>
    obtain ⟨d, _, n, found, _⟩ := enclosed
    exact Forest.mem_places.mpr (Forest.node?_lt found)
  | elements es =>
    obtain ⟨e, _, below⟩ := enclosed
    obtain ⟨p, parent, _⟩ := Forest.below_iff.mp below
    exact Forest.mem_places.mpr parent.lt

variable (ordered : f.Ordered)
include ordered

theorem covers_iff_encloses : sc.covers f i = true ↔ sc.Encloses f i := by
  cases sc with
  | documents ds => exact covers_documents
  | elements es => exact covers_elements ordered

/-- With a place, a part of a scope holds everything below it. -/
theorem candidates_below {part : List Nat} (listed : part ∈ sc.candidates f) (looked : i ∈ part)
    (below : f.Below i j) : j ∈ part := by
  cases sc with
  | documents ds =>
    obtain ⟨d, _, rfl⟩ := List.mem_map.mp listed
    exact Forest.mem_document.mpr ((ordered.below_lies below d).mp (Forest.mem_document.mp looked))
  | elements es =>
    obtain ⟨e, _, rfl⟩ := List.mem_map.mp listed
    exact ordered.mem_descendants.mpr ((ordered.mem_descendants.mp looked).trans below)

theorem mem_deepest {part : List Nat} : i ∈ deepest f t part ↔
    i ∈ part ∧ f.plainText i = t ∧ ∀ j ∈ part, f.Below i j → f.plainText j ≠ t := by
  unfold deepest
  simp only [List.mem_filter, beq_iff_eq, Bool.not_eq_true', List.any_eq_false, Bool.and_eq_true, bne_iff_ne,
    List.contains_iff_mem, ordered.mem_ancestors, and_assoc]
  refine and_congr_right fun _ => and_congr_right fun _ => ⟨?_, ?_⟩
  · intro clear j member below same
    exact clear j ⟨member, same⟩ ⟨(ordered.below_lt below).ne', below⟩
  · rintro clear j ⟨member, same⟩ ⟨_, below⟩
    exact clear j member below same

theorem encloses_iff_candidates : sc.Encloses f i ↔ ∃ part ∈ sc.candidates f, i ∈ part := by
  rw [Scope.mem_candidates_iff, covers_iff_encloses ordered]
  exact ⟨fun enclosed => ⟨enclosed.place, enclosed⟩, And.right⟩

/-- Picking part by part comes to picking from the whole page. -/
theorem mem_withText : i ∈ withText f sc t ↔ sc.Encloses f i ∧ Innermost f t i := by
  unfold withText Innermost
  rw [List.mem_filter, List.contains_iff_mem, List.mem_flatMap, encloses_iff_candidates ordered]
  simp only [mem_deepest ordered]
  constructor
  · rintro ⟨_, part, listed, looked, same, clear⟩
    refine ⟨⟨part, listed, looked⟩, same, fun j below => ?_⟩
    exact clear j (candidates_below ordered listed looked below) below
  · rintro ⟨⟨part, listed, looked⟩, same, clear⟩
    exact ⟨(Scope.mem_candidates_iff.mp ⟨part, listed, looked⟩).1, part, listed, looked, same, fun j _ below => clear j below⟩

end

/-! ## Every document -/

/-- What a search for a text finds: in document order and each once, exactly the elements of the scope that
are innermost with the text. None of them lies in another. -/
structure FindsText (f : Forest) (sc : Scope) (t : String) (found : List Nat) : Prop where
  sorted : found.Pairwise (· < ·)
  exactly : ∀ i, i ∈ found ↔ sc.Encloses f i ∧ Innermost f t i
  apart : ∀ i ∈ found, ∀ j ∈ found, ¬ f.Below i j

/-- In the forest of any document a search for a text, from documents or from any elements, finds the
innermost elements with the text and nothing else. The text of an element is its own and then, in order,
those of its children. -/
theorem text_finds_innermost (document : List Element) (sc : Scope) (t : String) :
    (∀ i ∈ (Forest.build document).1.places, (Forest.build document).1.text i =
      (Forest.build document).1.ownText i ++
        String.join (((Forest.build document).1.children i).map (Forest.build document).1.text)) ∧
    ∃ found, step (Forest.build document).1 sc (.text t) = .ok (.elements found) ∧
      FindsText (Forest.build document).1 sc t found := by
  have ordered : (Forest.build document).1.Ordered := build_ordered rfl
  refine ⟨fun i there => ordered.text_eq_join (Forest.mem_places.mp there), _, rfl, ?_⟩
  constructor
  case sorted => exact withText_sorted _ sc t
  case exactly => exact fun i => mem_withText ordered
  case apart =>
    intro i member j member' below
    obtain ⟨_, _, clear⟩ := (mem_withText ordered).mp member
    obtain ⟨_, same, _⟩ := (mem_withText ordered).mp member'
    exact clear j below same

end PageSpec.Page
