import PageSpec.Proofs.Page.Innermost
import PageSpec.Proofs.Page.Picking
import PageSpec.Proofs.Text.Words
/-!
Blank targets on a page. A target of blanks alone stands for the elements whose text is blank while that
of none below them is. Since no element shows more than those around it, these are the hollow ones: no
text of their own, and nothing below.
-/
namespace PageSpec

/-- A target of blanks alone stands for elements of a blank text. -/
theorem Target.classify_blank {t : String} (blank : Text.trim t = "") : classify t = .text "" := by
  have nothing : Text.trimChars t.toList = [] := by simpa [Text.trim] using blank
  unfold classify
  rw [nothing]
  rfl

namespace Page.Forest
variable {f : Forest} {i : Nat}

/-- No text of its own but blanks, and nothing below. -/
def hollow (f : Forest) (i : Nat) : Bool := Text.allBlank (f.ownText i) && (f.children i).isEmpty

theorem allBlank_text : Text.allBlank (f.text i) = true ↔
    Text.allBlank (f.ownText i) = true ∧ ∀ j ∈ f.descendants i, Text.allBlank (f.ownText j) = true := by
  unfold text Text.allBlank
  rw [String.toList_join]
  simp

theorem Ordered.descendants_eq_nil (ordered : f.Ordered) : f.descendants i = [] ↔ f.children i = [] := by
  simp only [List.eq_nil_iff_forall_not_mem, mem_children, ordered.mem_descendants]
  constructor
  · intro childless j hangs
    exact childless j (.single hangs)
  · intro childless j below
    obtain ⟨c, child, _⟩ := below_iff_children.mp below
    exact childless c (mem_children.mp child)

/-- An element whose text is blank has no text in what is below it either. -/
theorem Ordered.blank_below (ordered : f.Ordered) {j : Nat} (below : j ∈ f.descendants i)
    (blank : Text.allBlank (f.text i) = true) : Text.allBlank (f.text j) = true := by
  obtain ⟨_, each⟩ := allBlank_text.mp blank
  have under := ordered.mem_descendants.mp below
  refine allBlank_text.mpr ⟨each j below, fun k deeper => each k ?_⟩
  exact ordered.mem_descendants.mpr (under.trans (ordered.mem_descendants.mp deeper))

theorem Ordered.innermost_blank (ordered : f.Ordered) : Innermost f "" i ↔ f.hollow i = true := by
  unfold Innermost hollow plainText
  simp only [Bool.and_eq_true, ne_eq, Text.collapse_eq_empty_iff, List.isEmpty_iff]
  rw [← ordered.descendants_eq_nil]
  constructor
  · rintro ⟨blank, alone⟩
    refine ⟨(allBlank_text.mp blank).1, List.eq_nil_iff_forall_not_mem.mpr fun j below => ?_⟩
    exact alone j (ordered.mem_descendants.mp below) (ordered.blank_below below blank)
  · rintro ⟨blank, childless⟩
    rw [allBlank_text]
    simp only [← ordered.mem_descendants, childless]
    exact ⟨⟨blank, nofun⟩, nofun⟩

end Page.Forest

namespace Page
variable {f : Forest} {scope : Locator} {t : String}

/-- The hollow elements of a scope, in document order; a scope that cannot be made out has none. -/
def hollows (f : Forest) (scope : Locator) : List Nat :=
  match scopeOf f scope with
  | .ok sc => sc.search f f.hollow
  | .error _ => []

/-- A blank target matches the hollow elements of its scope. -/
theorem matchesOf_blank (ordered : f.Ordered) (blank : Text.trim t = "") :
    matchesOf f scope t = hollows f scope := by
  have made : scope.allOf t = scope.add (.text "") := by
    unfold Locator.allOf
    rw [Target.classify_blank blank]
    rfl
  unfold matchesOf hollows resolve
  rw [made, scopeOf_add]
  cases scopeOf f scope with
  | error e => rfl
  | ok sc =>
    refine (withText_sorted f sc "").eq_of_mem_iff (f.places_sorted.filter _) fun i => ?_
    rw [mem_withText ordered, Scope.mem_search, covers_iff_encloses ordered, ordered.innermost_blank]
    exact ⟨fun ⟨enclosed, hollow⟩ => ⟨enclosed.place, enclosed, hollow⟩, And.right⟩

end Page
end PageSpec
