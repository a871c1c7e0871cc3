import Mathlib.Data.List.Sort
import Mathlib.Logic.Relation
import PageSpec.Page.Forest
/-!
Families of nodes. A node knows its parent alone; who lies below whom, and how one gets from a node up
to its top element or down through everything below it, is said here by relations, so that a walk that
does not end has no derivation. In an ordered forest the views that are read off the parents are what
the walks come to.
-/
namespace PageSpec.Page.Forest
variable {f : Forest}

/-! ## Relations -/

def ParentOf (f : Forest) (p i : Nat) : Prop := f.parent? i = some p

/-- A node lies somewhere below another. -/
def Below (f : Forest) : Nat → Nat → Prop := Relation.TransGen f.ParentOf

/-- A node is another one or lies below it. -/
def Within (f : Forest) : Nat → Nat → Prop := Relation.ReflTransGen f.ParentOf

/-- The way up from a node: its parent, the parent of that, and so on to an element without one. -/
inductive Climb (f : Forest) : Nat → List Nat → Prop
  | top {i : Nat} (alone : f.parent? i = none) : Climb f i []
  | up {i p : Nat} {above : List Nat} (parent : f.ParentOf p i) (rest : Climb f p above) :
    Climb f i (p :: above)

/-- The way through some nodes: one after another, each followed by the way through its children. -/
inductive Walk (f : Forest) : List Nat → List Nat → Prop
  | finished : Walk f [] []
  | node {i : Nat} {is inside after : List Nat} (down : Walk f (f.children i) inside)
    (on : Walk f is after) : Walk f (i :: is) (i :: (inside ++ after))

/-- Neither a node nor anything that it lies below is hidden. -/
def Seen (f : Forest) (i : Nat) : Prop := ∀ a, f.Within a i → f.hidden a = false

/-- A node lies in a document. -/
def LiesIn (f : Forest) (d i : Nat) : Prop := ∃ n, f.node? i = some n ∧ n.doc = d

/-- A node embeds a document. -/
def Embeds (f : Forest) (i d : Nat) : Prop := ∃ n, f.node? i = some n ∧ n.content = some d

/-! ## Views -/

theorem mem_places {i : Nat} : i ∈ f.places ↔ i < f.nodes.length := List.mem_range

theorem places_sorted (f : Forest) : f.places.Pairwise (· < ·) := List.pairwise_lt_range

theorem node?_lt {i : Nat} {n : Node} (found : f.node? i = some n) : i < f.nodes.length :=
  (List.getElem?_eq_some_iff.mp found).1

theorem ParentOf.lt {p i : Nat} (parent : f.ParentOf p i) : i < f.nodes.length := by
  obtain ⟨n, found, _⟩ := Option.bind_eq_some_iff.mp parent
  exact node?_lt found

theorem mem_children {p i : Nat} : i ∈ f.children p ↔ f.ParentOf p i := by
  unfold children
  rw [List.mem_filter, mem_places, beq_iff_eq]
  exact ⟨fun both => both.2, fun parent => ⟨ParentOf.lt parent, parent⟩⟩

theorem children_sorted (f : Forest) (i : Nat) : (f.children i).Pairwise (· < ·) :=
  (places_sorted f).filter _

theorem mem_document {d i : Nat} : i ∈ f.document d ↔ f.LiesIn d i := by
  unfold document LiesIn
  rw [List.mem_filter, mem_places]
  constructor
  · rintro ⟨_, same⟩
    cases found : f.node? i with
    | none => rw [found] at same; cases same
    | some n => rw [found] at same; exact ⟨n, rfl, beq_iff_eq.mp same⟩
  · rintro ⟨n, found, rfl⟩
    rw [found]
    exact ⟨node?_lt found, beq_self_eq_true _⟩

theorem document_sorted (f : Forest) (d : Nat) : (f.document d).Pairwise (· < ·) :=
  (places_sorted f).filter _

theorem mem_tops {d i : Nat} : i ∈ f.tops d ↔ f.LiesIn d i ∧ f.parent? i = none := by
  unfold tops
  rw [List.mem_filter, mem_document, Option.isNone_iff_eq_none]

theorem LiesIn.unique {d e i : Nat} (one : f.LiesIn d i) (other : f.LiesIn e i) : d = e := by
  obtain ⟨n, found, rfl⟩ := one
  obtain ⟨m, found', rfl⟩ := other
  cases found.symm.trans found'
  rfl

theorem LiesIn.exists_of_lt {i : Nat} (there : i < f.nodes.length) : ∃ d, f.LiesIn d i :=
  ⟨_, _, List.getElem?_eq_getElem there, rfl⟩

theorem embeds_iff {i d : Nat} : (f.node? i).bind (·.content) = some d ↔ f.Embeds i d := Option.bind_eq_some_iff

theorem below_iff {a i : Nat} : f.Below a i ↔ ∃ p, f.ParentOf p i ∧ f.Within a p := by
  refine Relation.TransGen.tail'_iff.trans ⟨?_, ?_⟩
  · rintro ⟨p, within, parent⟩
    exact ⟨p, parent, within⟩
  · rintro ⟨p, parent, within⟩
    exact ⟨p, within, parent⟩

/-- What lies below a node are its children and what lies below them. -/
theorem below_iff_children {a i : Nat} : f.Below a i ↔ ∃ c ∈ f.children a, f.Within c i := by
  simp only [mem_children]
  exact Relation.TransGen.head'_iff

theorem within_iff {a i : Nat} : f.Within a i ↔ i = a ∨ f.Below a i :=
  Relation.reflTransGen_iff_eq_or_transGen

/-! ## Ways -/

theorem Climb.mem_iff {i a : Nat} {above : List Nat} (way : Climb f i above) :
    a ∈ above ↔ f.Below a i := by
  induction way with
  | @top i alone =>
    simp only [List.not_mem_nil, false_iff]
    intro below
    obtain ⟨p, parent, _⟩ := below_iff.mp below
    exact nomatch alone.symm.trans parent
  | @up i p above parent rest ih =>
    rw [List.mem_cons, ih, below_iff (i := i)]
    constructor
    · rintro (rfl | below)
      · exact ⟨a, parent, .refl⟩
      · exact ⟨p, parent, below.to_reflTransGen⟩
    · rintro ⟨q, parent', within⟩
      have same : p = q := Option.some.inj (parent.symm.trans parent')
      rcases within_iff.mp within with rfl | below
      · exact .inl same.symm
      · exact .inr (same ▸ below)

theorem Walk.mem_iff {is ls : List Nat} (way : Walk f is ls) (x : Nat) :
    x ∈ ls ↔ ∃ i ∈ is, f.Within i x := by
  induction way with
  | finished => simp
  | @node i is inside after down on ihDown ihOn =>
    rw [List.mem_cons, List.mem_append, ihDown, ihOn, ← below_iff_children, ← or_assoc, ← within_iff]
    simp only [List.mem_cons, exists_eq_or_imp]

theorem Walk.append {is js ls ms : List Nat} (first : Walk f is ls) (second : Walk f js ms) :
    Walk f (is ++ js) (ls ++ ms) := by
  induction first with
  | finished => exact second
  | node down on ihDown ihOn =>
    rw [List.cons_append, List.cons_append, List.append_assoc]
    exact .node down ihOn

/-- The way through some nodes has the way through each node it visits as a part. -/
theorem Walk.part {is ls : List Nat} {j : Nat} (way : Walk f is ls) (visited : j ∈ ls) :
    ∃ ws, Walk f [j] ws ∧ ws.Sublist ls := by
  induction way with
  | finished => cases visited
  | @node i is inside after down on ihDown ihOn =>
    rcases List.mem_cons.mp visited with rfl | later
    · refine ⟨_, .node down .finished, ?_⟩
      rw [List.append_nil]
      exact (List.sublist_append_left inside after).cons_cons j
    · rcases List.mem_append.mp later with below | beside
      · obtain ⟨ws, way, part⟩ := ihDown below
        exact ⟨ws, way, (part.trans (List.sublist_append_left inside after)).cons i⟩
      · obtain ⟨ws, way, part⟩ := ihOn beside
        exact ⟨ws, way, (part.trans (List.sublist_append_right inside after)).cons i⟩

/-! ## Order -/

/-- Every parent stands before its child, in the same document; every document is numbered in the order
of a walk through it. -/
structure Ordered (f : Forest) : Prop where
  before : ∀ {p i}, f.ParentOf p i → p < i
  together : ∀ {p i d}, f.ParentOf p i → f.LiesIn d i → f.LiesIn d p
  walked : ∀ d, Walk f (f.tops d) (f.document d)

namespace Ordered
variable (ordered : f.Ordered)
include ordered

theorem below_lt {a i : Nat} (below : f.Below a i) : a < i := by
  induction below with
  | single parent => exact ordered.before parent
  | tail _ parent ih => exact Nat.lt_trans ih (ordered.before parent)

theorem climb_reaches : ∀ {n i : Nat}, i ≤ n → Climb f i (f.climb n i)
  | 0, i, bound => by
    refine .top ?_
    cases parent : f.parent? i with
    | none => rfl
    | some p => exact absurd (ordered.before parent) (by omega)
  | n + 1, i, bound => by
    rw [climb]
    cases parent : f.parent? i with
    | none => exact .top parent
    | some p => exact .up parent (climb_reaches (by have := ordered.before parent; omega))

/-- The ancestors are the way up, to its very end. -/
theorem ancestors_climb (i : Nat) : Climb f i (f.ancestors i) := climb_reaches ordered (Nat.le_refl i)

theorem mem_ancestors {a i : Nat} : a ∈ f.ancestors i ↔ f.Below a i := (ancestors_climb ordered i).mem_iff

theorem mem_descendants {a i : Nat} : i ∈ f.descendants a ↔ f.Below a i := by
  unfold descendants
  rw [List.mem_filter, mem_places, List.contains_iff_mem, mem_ancestors ordered]
  refine ⟨fun both => both.2, fun below => ⟨?_, below⟩⟩
  obtain ⟨p, parent, _⟩ := below_iff.mp below
  exact ParentOf.lt parent

/-- What lies below a node lies in its document. -/
theorem below_lies {a i : Nat} (below : f.Below a i) (d : Nat) : f.LiesIn d a ↔ f.LiesIn d i := by
  have upward {e : Nat} (lies : f.LiesIn e i) : f.LiesIn e a := by
    induction below with
    | single parent => exact ordered.together parent lies
    | tail _ parent ih => exact ih (ordered.together parent lies)
  refine ⟨fun lies => ?_, upward⟩
  obtain ⟨p, parent, _⟩ := below_iff.mp below
  obtain ⟨e, lies'⟩ := LiesIn.exists_of_lt parent.lt
  exact lies.unique (upward lies') ▸ lies'

/-- The descendants are the way through everything below a node. -/
theorem descendants_walk {i : Nat} (there : i < f.nodes.length) : Walk f [i] (i :: f.descendants i) := by
  have lies : f.LiesIn f.nodes[i].doc i := ⟨f.nodes[i], List.getElem?_eq_getElem there, rfl⟩
  obtain ⟨ws, way, part⟩ := (ordered.walked _).part (mem_document.mpr lies)
  have sorted : (i :: f.descendants i).Pairwise (· < ·) := by
    refine List.pairwise_cons.mpr ⟨fun x member => ?_, (places_sorted f).filter _⟩
    exact below_lt ordered ((mem_descendants ordered).mp member)
  have same : ws = i :: f.descendants i := by
    refine ((document_sorted f _).sublist part).eq_of_mem_iff sorted fun x => ?_
    rw [way.mem_iff, List.mem_cons, mem_descendants ordered, ← within_iff]
    simp only [List.mem_singleton, exists_eq_left]
  exact same ▸ way

theorem visible_iff {i : Nat} : f.visible i = true ↔ f.Seen i := by
  have around (a : Nat) : a ∈ i :: f.ancestors i ↔ f.Within a i := by
    rw [List.mem_cons, mem_ancestors ordered, within_iff, eq_comm]
  unfold visible Seen
  simp only [List.all_eq_true, around, Bool.not_eq_true']

end Ordered
end PageSpec.Page.Forest
