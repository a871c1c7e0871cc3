import PageSpec.Proofs.Page.Locating
import PageSpec.Proofs.Page.Standing
/-!
What a locator stands for on a page. The numbers that resolving yields are numbers of nodes, each once,
and whatever is looked up on the way is there. Unless the last step goes into a frame they stand in
document order.
-/
namespace PageSpec.Page

/-! ## Forests of documents -/

/-- The forest that a document makes: the elements stand in it as they stand in the document, parents
and children tell the same story, every node lies in one document, and the ways up and down all end. The
lists that were collected while it was built are the ones that are read off the parents. -/
structure Grown (document : List Element) (f : Forest) : Prop where
  stands : StandAll f 0 none document (f.tops 0)
  before : ∀ {p i}, f.ParentOf p i → p < i
  siblings : ∀ i, (f.children i).Pairwise (· < ·)
  children : ∀ p i, i ∈ f.children p ↔ f.parent? i = some p
  lies : ∀ i ∈ f.places, ∃ d, ((d = 0 ∨ ∃ j, f.Embeds j d) ∧ i ∈ f.document d) ∧ ∀ e, i ∈ f.document e → e = d
  embeds : ∀ {i j d}, f.Embeds i d → f.Embeds j d → i = j
  inner : ∀ {i d}, f.Embeds i d → d ≠ 0
  climbs : ∀ i, f.Climb i (f.ancestors i)
  walks : ∀ i ∈ f.places, f.Walk [i] (i :: f.descendants i)
  documents : ∀ d, f.Walk (f.tops d) (f.document d)
  childLists : (collected document).children = f.places.map fun i => (i, f.children i)
  topLists : (collected document).tops = (List.range (planted document).docs).map fun d => (d, f.tops d)

theorem build_grown (document : List Element) : Grown document (Forest.build document).1 where
  stands := build_stands rfl
  before := (build_ordered rfl).before
  siblings := Forest.children_sorted _
  children p i := Forest.mem_children
  lies i place := by
    obtain ⟨d, lies⟩ := Forest.LiesIn.exists_of_lt (Forest.mem_places.mp place)
    refine ⟨d, ⟨embedded_of_lies rfl lies, Forest.mem_document.mpr lies⟩, fun e member => ?_⟩
    exact (Forest.mem_document.mp member).unique lies
  embeds {i j d} first second := by
    rcases Nat.lt_trichotomy i j with before | same | after
    · exact absurd (embeds_lt rfl before first second) (Nat.lt_irrefl d)
    · exact same
    · exact absurd (embeds_lt rfl after second first) (Nat.lt_irrefl d)
  inner embeds := embeds_ne_zero rfl embeds
  climbs := (build_ordered rfl).ancestors_climb
  walks i place := (build_ordered rfl).descendants_walk (Forest.mem_places.mp place)
  documents := (build_ordered rfl).walked
  childLists := (build_listed rfl).1
  topLists := (build_listed rfl).2

/-! ## Scopes -/

/-- A scope leads to what is there: documents of the forest, each once, or nodes in document order. -/
def Scope.Valid (f : Forest) : Scope → Prop
  | .documents ds => ds.Nodup ∧ ∀ d ∈ ds, d = 0 ∨ ∃ j, f.Embeds j d
  | .elements es => es.Pairwise (· < ·) ∧ ∀ i ∈ es, i < f.nodes.length

section
variable {f : Forest} {sc out : Scope} {es : List Nat}

theorem matched_lt (valid : sc.Valid f) : ∀ i ∈ sc.matched f, i < f.nodes.length := by
  cases sc with
  | elements es => exact valid.2
  | documents ds =>
    intro i member
    obtain ⟨d, _, first⟩ := List.mem_filterMap.mp member
    obtain ⟨⟨n, found, _⟩, _⟩ := Forest.mem_tops.mp (List.mem_of_head? first)
    exact Forest.node?_lt found

/-- Different documents have different elements. -/
theorem matched_nodup (valid : sc.Valid f) : (sc.matched f).Nodup := by
  cases sc with
  | elements es => exact valid.1.imp Nat.ne_of_lt
  | documents ds =>
    refine valid.1.filterMap fun d e i first second => ?_
    have lies := (Forest.mem_tops.mp (List.mem_of_head? first)).1
    have lies' := (Forest.mem_tops.mp (List.mem_of_head? second)).1
    exact lies.unique lies'

/-- A step leads from what is there to what is there. -/
theorem step_valid {document : List Element} (grown : Grown document f) {s : Step} (valid : sc.Valid f)
    (stepped : step f sc s = .ok out) : out.Valid f := by
  rcases s.frame_or_inside with ⟨selector, rfl⟩ | inside
  · obtain ⟨frames, selected, rfl⟩ := step_frame_iff.mp stepped
    constructor
    · -- no two nodes embed one document
      have different : frames.Nodup := (select_sorted selected).imp Nat.ne_of_lt
      refine different.filterMap fun i j d first second => ?_
      exact grown.embeds (Forest.embeds_iff.mp first) (Forest.embeds_iff.mp second)
    · intro d member
      obtain ⟨j, _, embeds⟩ := List.mem_filterMap.mp member
      exact .inr ⟨j, Forest.embeds_iff.mp embeds⟩
  · obtain ⟨es, rfl, sorted, gives⟩ := step_elements inside stepped
    refine ⟨sorted, fun i member => ?_⟩
    cases gives i member with
    | searched there => exact Forest.mem_places.mp there
    | parent child hangs => exact Nat.lt_trans (grown.before hangs) hangs.lt
    | picked member => exact matched_lt valid i member

/-- Every scope that a locator leads to is there. -/
theorem scopeOf_valid {document : List Element} (grown : Grown document f) {l : Locator}
    (reached : scopeOf f l = .ok sc) : sc.Valid f :=
  scopeOf_keeps reached (fun _ _ _ _ valid stepped => step_valid grown valid stepped) ⟨List.nodup_singleton 0, by simp⟩

/-- A locator that does not end in a frame stands for nodes in document order. -/
theorem resolve_sorted {l : Locator} (last : ∀ selector, l.steps.getLast? ≠ some (.frame selector))
    (found : resolve f l = .ok es) : es.Pairwise (· < ·) := by
  obtain ⟨sc, reached, rfl⟩ := resolve_eq_ok_iff.mp found
  rcases l.eq_page_or_add with rfl | ⟨outer, s, rfl⟩
  · cases reached
    show (List.filterMap (fun d => (f.tops d).head?) [0]).Pairwise (· < ·)
    cases first : (f.tops 0).head? <;> simp [first]
  · obtain ⟨start, _, stepped⟩ := scopeOf_add_ok.mp reached
    have inside : ∀ selector, s ≠ .frame selector := by
      rintro selector rfl
      exact last selector (by simp [Locator.add])
    obtain ⟨es, rfl, sorted, _⟩ := step_elements inside stepped
    exact sorted

end

/-! ## Every document -/

/-- What a locator stands for in the forest of a document is there. -/
theorem resolve_lt {document : List Element} {l : Locator} {es : List Nat}
    (found : resolve (Forest.build document).1 l = .ok es) : ∀ i ∈ es, i < (Forest.build document).1.nodes.length := by
  obtain ⟨sc, reached, rfl⟩ := resolve_eq_ok_iff.mp found
  exact matched_lt (scopeOf_valid (build_grown document) reached)

/-- In the forest of any document, a locator that resolves stands for nodes that are there, each once,
and everything on the way to them is there. -/
theorem build_resolves (document : List Element) :
    Grown document (Forest.build document).1 ∧
      (∀ l sc, scopeOf (Forest.build document).1 l = .ok sc → sc.Valid (Forest.build document).1) ∧
      ∀ l es, resolve (Forest.build document).1 l = .ok es →
        (∀ i ∈ es, i < (Forest.build document).1.nodes.length) ∧ es.Nodup ∧
        ((∀ selector, l.steps.getLast? ≠ some (.frame selector)) → es.Pairwise (· < ·)) := by
  have grown := build_grown document
  refine ⟨grown, fun l sc reached => scopeOf_valid grown reached, fun l es found => ?_⟩
  refine ⟨resolve_lt found, ?_, fun last => resolve_sorted last found⟩
  obtain ⟨sc, reached, rfl⟩ := resolve_eq_ok_iff.mp found
  exact matched_nodup (scopeOf_valid grown reached)

end PageSpec.Page
