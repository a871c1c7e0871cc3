import PageSpec.Proofs.Page.Scoping
/-!
Selectors along the nodes of a page. A chain of compounds is matched from its last compound upwards, with a new
try at every ancestor for a descendant combinator. No choice on the way is final, so a node matches exactly if
nodes for all compounds can be found at all; and since every way up ends, so does every search.
-/
namespace PageSpec.Page

/-! ## Chains from the left -/

namespace Chain

/-- The compounds from left to right. -/
def compounds : Chain → List Compound
  | .one c => [c]
  | .link left _ c => left.compounds ++ [c]

/-- The combinators from left to right, each between its compound and the next. -/
def combinators : Chain → List Combinator
  | .one _ => []
  | .link left k _ => left.combinators ++ [k]

theorem compounds_length : ∀ g : Chain, g.compounds.length = g.combinators.length + 1
  | .one _ => rfl
  | .link left _ _ => by
    rw [compounds, combinators, List.length_append, List.length_append, compounds_length left]
    rfl

end Chain

/-- How a combinator wants a node to stand above another. -/
def Combinator.Joins (f : Forest) : Combinator → Nat → Nat → Prop
  | .child, a, i => f.ParentOf a i
  | .descendant, a, i => f.Below a i

/-- There is a node that has everything a compound asks for. -/
def Compound.HoldsAt (f : Forest) (c : Compound) (i : Nat) : Prop := ∃ n, f.node? i = some n ∧ c.Meets n.traits

/-- Nodes for the compounds of a chain, by the places of the compounds: every node satisfies its compound, and
any two neighbours stand as the combinator between them says. -/
structure Chain.LiesAlong (f : Forest) (g : Chain) (node : Nat → Nat) : Prop where
  holds : ∀ (j : Nat) (c : Compound), g.compounds[j]? = some c → c.HoldsAt f (node j)
  joined : ∀ (j : Nat) (k : Combinator), g.combinators[j]? = some k → k.Joins f (node j) (node (j + 1))

/-- What is said of everything in a list with one more element is said of the list and of that element. -/
theorem forall_getElem?_snoc {α : Type} {xs : List α} {x : α} {P : Nat → α → Prop} :
    (∀ j y, (xs ++ [x])[j]? = some y → P j y) ↔ (∀ j y, xs[j]? = some y → P j y) ∧ P xs.length x := by
  constructor
  · intro all
    refine ⟨fun j y at_ => all j y ?_, all xs.length x (by simp)⟩
    rw [List.getElem?_append_left (List.getElem?_eq_some_iff.mp at_).1, at_]
  · rintro ⟨each, last⟩ j y at_
    rcases Nat.lt_trichotomy j xs.length with inside | rfl | beyond
    · exact each j y ((List.getElem?_append_left inside).symm.trans at_)
    · rw [List.getElem?_concat_length] at at_
      cases at_
      exact last
    · have bound := (List.getElem?_eq_some_iff.mp at_).1
      rw [List.length_append, List.length_singleton] at bound
      omega

section
variable {f : Forest} {c : Compound} {k : Combinator} {left : Chain} {node node' : Nat → Nat}

theorem Chain.fits_link {i : Nat} :
    (Chain.link left k c).Fits f i ↔ c.HoldsAt f i ∧ ∃ a, k.Joins f a i ∧ left.Fits f a := by
  cases k <;> rfl

theorem Chain.liesAlong_one : (Chain.one c).LiesAlong f node ↔ c.HoldsAt f (node 0) := by
  constructor
  · exact fun along => along.holds 0 c rfl
  · intro here
    refine ⟨fun j c' asked => ?_, fun j k asked => nomatch asked⟩
    cases j with
    | zero => cases asked; exact here
    | succ j => cases asked

/-- One more compound takes one more node. -/
theorem Chain.liesAlong_link : (Chain.link left k c).LiesAlong f node ↔ left.LiesAlong f node ∧
    k.Joins f (node left.combinators.length) (node (left.combinators.length + 1)) ∧
      c.HoldsAt f (node (left.combinators.length + 1)) := by
  rw [← compounds_length]
  constructor
  · rintro ⟨holds, joined⟩
    obtain ⟨holds, here⟩ := forall_getElem?_snoc.mp holds
    obtain ⟨joined, joins⟩ := forall_getElem?_snoc.mp joined
    rw [← compounds_length] at joins
    exact ⟨⟨holds, joined⟩, joins, here⟩
  · rintro ⟨⟨holds, joined⟩, joins, here⟩
    rw [compounds_length] at joins
    exact ⟨forall_getElem?_snoc.mpr ⟨holds, here⟩, forall_getElem?_snoc.mpr ⟨joined, joins⟩⟩

/-- Nodes behind the last compound do not count. -/
theorem Chain.LiesAlong.congr (along : left.LiesAlong f node)
    (same : ∀ j ≤ left.combinators.length, node' j = node j) : left.LiesAlong f node' := by
  have counted := left.compounds_length
  constructor
  · intro j c asked
    have bound := (List.getElem?_eq_some_iff.mp asked).1
    rw [same j (by omega)]
    exact along.holds j c asked
  · intro j k asked
    have bound := (List.getElem?_eq_some_iff.mp asked).1
    rw [same j (by omega), same (j + 1) (by omega)]
    exact along.joined j k asked

/-- What a chain asks of a node and of what is above it, said of all its nodes at once. -/
theorem Chain.fits_iff : ∀ {g : Chain} {i : Nat},
    g.Fits f i ↔ ∃ node, g.LiesAlong f node ∧ node g.combinators.length = i
  | .one c, i => by
    simp only [liesAlong_one]
    constructor
    · exact fun here => ⟨fun _ => i, here, rfl⟩
    · rintro ⟨node, here, rfl⟩
      exact here
  | .link left k c, i => by
    have counted : (Chain.link left k c).combinators.length = left.combinators.length + 1 :=
      List.length_append
    rw [fits_link, counted]
    simp only [fits_iff (g := left), liesAlong_link]
    constructor
    · rintro ⟨here, _, joins, node, along, rfl⟩
      let node' (j : Nat) : Nat := if j ≤ left.combinators.length then node j else i
      have inside (j : Nat) (bound : j ≤ left.combinators.length) : node' j = node j := if_pos bound
      have top : node' (left.combinators.length + 1) = i := if_neg (Nat.not_succ_le_self _)
      refine ⟨node', ⟨along.congr inside, ?_, top ▸ here⟩, top⟩
      rwa [top, inside _ (Nat.le_refl _)]
    · rintro ⟨node, ⟨along, joins, here⟩, rfl⟩
      exact ⟨here, _, joins, node, along, rfl⟩

end

/-! ## Searching upwards -/

mutual
/-- A search for a chain at a node ends in an answer. The last compound is tried at the node and, if it fits,
the compounds before it further up. -/
inductive Chain.Search (f : Forest) : Chain → Nat → Bool → Prop
  | one {c : Compound} {i : Nat} : Search f (.one c) i ((f.node? i).any (c.admits ·.traits))
  | refused {left : Chain} {k : Combinator} {c : Compound} {i : Nat}
    (unfit : (f.node? i).any (c.admits ·.traits) = false) : Search f (.link left k c) i false
  | orphan {left : Chain} {c : Compound} {i : Nat} (fit : (f.node? i).any (c.admits ·.traits) = true)
    (alone : f.parent? i = none) : Search f (.link left .child c) i false
  | child {left : Chain} {c : Compound} {i p : Nat} {b : Bool} (fit : (f.node? i).any (c.admits ·.traits) = true)
    (parent : f.parent? i = some p) (up : Search f left p b) : Search f (.link left .child c) i b
  | descendant {left : Chain} {c : Compound} {i : Nat} {b : Bool}
    (fit : (f.node? i).any (c.admits ·.traits) = true) (up : SearchAbove f left i b) :
    Search f (.link left .descendant c) i b
/-- The search at everything above a node, nearest first, until one node answers yes. -/
inductive Chain.SearchAbove (f : Forest) : Chain → Nat → Bool → Prop
  | top {g : Chain} {i : Nat} (alone : f.parent? i = none) : SearchAbove f g i false
  | found {g : Chain} {i p : Nat} (parent : f.parent? i = some p) (here : Search f g p true) : SearchAbove f g i true
  | on {g : Chain} {i p : Nat} {b : Bool} (parent : f.parent? i = some p) (not : Search f g p false)
    (rest : SearchAbove f g p b) : SearchAbove f g i b
end

section
variable {f : Forest} {g left : Chain} {i : Nat}

theorem Chain.admits_link {k : Combinator} {c : Compound} : (Chain.link left k c).admits f i =
    ((f.node? i).any (c.admits ·.traits) && match k with
      | .child => (f.parent? i).any (left.admits f)
      | .descendant => (f.ancestors i).any (left.admits f)) := by
  cases k <;> rfl

/-- Where searches for a chain end in one answer each, so does the search for it along a way up. -/
theorem Chain.searchAbove_iff {above : List Nat} (way : f.Climb i above)
    (ends : ∀ p b, g.Search f p b ↔ b = g.admits f p) (b : Bool) :
    g.SearchAbove f i b ↔ b = above.any (g.admits f) := by
  induction way generalizing b with
  | top alone =>
    constructor
    · intro searched
      cases searched with
      | top => rfl
      | found parent => cases alone.symm.trans parent
      | on parent => cases alone.symm.trans parent
    · rintro rfl
      exact .top alone
  | @up i p above parent rest ih =>
    rw [List.any_cons]
    constructor
    · intro searched
      cases searched with
      | top alone => cases alone.symm.trans parent
      | found parent' here =>
        cases parent.symm.trans parent'
        rw [← (ends p true).mp here, Bool.true_or]
      | on parent' not rest =>
        cases parent.symm.trans parent'
        rw [← (ends p false).mp not, Bool.false_or]
        exact (ih b).mp rest
    · rintro rfl
      cases here : g.admits f p with
      | true => exact .found parent ((ends p true).mpr here.symm)
      | false => exact .on parent ((ends p false).mpr here.symm) ((ih _).mpr rfl)

/-- Every search for a chain ends, and in one answer only: whether the chain admits the node. -/
theorem Chain.search_iff (ordered : f.Ordered) : ∀ (g : Chain) (i : Nat) (b : Bool),
    g.Search f i b ↔ b = g.admits f i
  | .one c, i, b => by
    constructor
    · rintro ⟨⟩
      rfl
    · rintro rfl
      exact .one
  | .link left k c, i, b => by
    rw [admits_link]
    cases fit : (f.node? i).any (c.admits ·.traits) with
    | false =>
      constructor
      · intro searched
        cases searched with
        | refused => rfl
        | orphan fit' => cases fit.symm.trans fit'
        | child fit' => cases fit.symm.trans fit'
        | descendant fit' => cases fit.symm.trans fit'
      · rintro rfl
        exact .refused fit
    | true =>
      rw [Bool.true_and]
      cases k with
      | child =>
        cases parent : f.parent? i with
        | none =>
          constructor
          · intro searched
            cases searched with
            | refused unfit => cases fit.symm.trans unfit
            | orphan => rfl
            | child _ parent' => cases parent.symm.trans parent'
          · rintro rfl
            exact .orphan fit parent
        | some p =>
          rw [Option.any_some, ← search_iff ordered left]
          constructor
          · intro searched
            cases searched with
            | refused unfit => cases fit.symm.trans unfit
            | orphan _ alone => cases parent.symm.trans alone
            | child _ parent' up => cases parent.symm.trans parent'; exact up
          · exact .child fit parent
      | descendant =>
        rw [← searchAbove_iff (ordered.ancestors_climb i) (search_iff ordered left)]
        constructor
        · intro searched
          cases searched with
          | refused unfit => cases fit.symm.trans unfit
          | descendant _ up => exact up
        · exact .descendant fit

end

/-! ## Every document -/

/-- In the forest of any document, a node matches a selector exactly if there are nodes for all compounds of one
of its groups, the last of them the given node; and every search for a chain ends with the answer. -/
theorem matching_complete (document : List Element) (groups : List Chain) (i : Nat) :
    (selected (Forest.build document).1 groups i = true ↔
      ∃ g ∈ groups, ∃ node, g.LiesAlong (Forest.build document).1 node ∧ node g.combinators.length = i) ∧
    ∀ (g : Chain) (b : Bool),
      g.Search (Forest.build document).1 i b ↔ b = g.admits (Forest.build document).1 i := by
  have ordered : (Forest.build document).1.Ordered := build_ordered rfl
  refine ⟨?_, fun g => Chain.search_iff ordered g i⟩
  rw [selected_iff ordered]
  unfold Matches
  simp only [Chain.fits_iff]

end PageSpec.Page
