import PageSpec.Proofs.Page.Locating
import PageSpec.Proofs.Page.Standing
/-!
Where a search looks and what it finds. Selectors are read as conditions on a node, its parents and what
is above it. One more search from a locator finds exactly the nodes that meet the condition and lie below
its elements, or in its documents if it ends at documents. A step that does not go into a frame never
leaves the documents it starts in.
-/
namespace PageSpec.Page

/-! ## Selectors as conditions -/

/-- An element has everything that a compound asks for. -/
structure Compound.Meets (c : Compound) (t : Traits) : Prop where
  tag : ∀ tag ∈ c.tag, t.tag = tag
  id : ∀ id ∈ c.id, t.id = some id
  classes : ∀ name ∈ c.classes, name ∈ t.classes
  attrs : ∀ name wanted, (name, wanted) ∈ c.attrs →
    ∃ actual, t.attr? name = some actual ∧ ∀ value ∈ wanted, actual = value

/-- A node meets the last compound of a chain, and nodes above it meet the others: the parent for a
child combinator, any ancestor for a descendant combinator. -/
def Chain.Fits (f : Forest) : Chain → Nat → Prop
  | .one c, i => ∃ n, f.node? i = some n ∧ c.Meets n.traits
  | .link left .child c, i => (∃ n, f.node? i = some n ∧ c.Meets n.traits) ∧ ∃ p, f.ParentOf p i ∧ left.Fits f p
  | .link left .descendant c, i => (∃ n, f.node? i = some n ∧ c.Meets n.traits) ∧ ∃ a, f.Below a i ∧ left.Fits f a

/-- A node matches a selector if it fits one of its groups. -/
def Matches (f : Forest) (groups : List Chain) (i : Nat) : Prop := ∃ g ∈ groups, g.Fits f i

section
variable {f : Forest} {i : Nat}

theorem Compound.admits_iff {c : Compound} {t : Traits} : c.admits t = true ↔ c.Meets t := by
  unfold admits
  simp only [Bool.and_eq_true, List.all_eq_true, Option.all_eq_true, beq_iff_eq]
  constructor
  · rintro ⟨⟨⟨tag, id⟩, classes⟩, attrs⟩
    refine ⟨tag, id, fun name member => ?_, fun name wanted member => ?_⟩
    · exact List.contains_iff_mem.mp (classes name member)
    · have asked := attrs (name, wanted) member
      cases there : t.attr? name with
      | none => rw [there] at asked; cases asked
      | some actual =>
        rw [there] at asked
        exact ⟨actual, rfl, by simpa [Option.all_eq_true] using asked⟩
  · rintro ⟨tag, id, classes, attrs⟩
    refine ⟨⟨⟨tag, id⟩, fun name member => ?_⟩, fun a member => ?_⟩
    · exact List.contains_iff_mem.mpr (classes name member)
    · obtain ⟨actual, there, same⟩ := attrs a.1 a.2 member
      rw [there]
      simpa [Option.all_eq_true] using same

theorem admits_here {c : Compound} :
    (f.node? i).any (c.admits ·.traits) = true ↔ ∃ n, f.node? i = some n ∧ c.Meets n.traits := by
  simp only [Option.any_eq_true, Compound.admits_iff]

theorem Chain.Fits.there : ∀ {g : Chain}, g.Fits f i → ∃ n, f.node? i = some n
  | .one _, ⟨n, found, _⟩ => ⟨n, found⟩
  | .link _ .child _, ⟨⟨n, found, _⟩, _⟩ => ⟨n, found⟩
  | .link _ .descendant _, ⟨⟨n, found, _⟩, _⟩ => ⟨n, found⟩

theorem Matches.place {groups : List Chain} (matching : Matches f groups i) : i ∈ f.places := by
  obtain ⟨g, _, fits⟩ := matching
  obtain ⟨n, found⟩ := fits.there
  exact Forest.mem_places.mpr (Forest.node?_lt found)

/-- A chain is checked from its last compound upwards, and finds what stands above. -/
theorem Chain.admits_iff (ordered : f.Ordered) : ∀ {g : Chain} {i : Nat}, g.admits f i = true ↔ g.Fits f i
  | .one c, i => admits_here
  | .link left .child c, i => by
    rw [admits, Bool.and_eq_true, admits_here, Fits, Option.any_eq_true]
    simp only [admits_iff ordered (g := left)]
    rfl
  | .link left .descendant c, i => by
    rw [admits, Bool.and_eq_true, admits_here, Fits, List.any_eq_true]
    simp only [admits_iff ordered (g := left), ordered.mem_ancestors]

theorem selected_iff (ordered : f.Ordered) {groups : List Chain} :
    selected f groups i = true ↔ Matches f groups i := by
  unfold selected Matches
  simp only [List.any_eq_true, Chain.admits_iff ordered]

end

/-! ## Where a search looks -/

/-- A locator ends at a document: the bare page at its own, one that goes into frames at those that the
matching elements embed. -/
inductive EndsAt (f : Forest) (l : Locator) (d : Nat) : Prop
  | page (bare : l = .page) (own : d = 0)
  | frame {outer : Locator} {selector : String} {frames : List Nat} {e : Nat}
    (last : l = outer.add (.frame selector)) (found : resolve f (outer.css selector) = .ok frames)
    (member : e ∈ frames) (embeds : f.Embeds e d)

/-- A search from a locator looks at a node: the node lies in a document that the locator ends at, or
the locator ends at elements and the node lies below one of them. -/
inductive Searches (f : Forest) (l : Locator) (es : List Nat) (i : Nat) : Prop
  | document {d : Nat} (ends : EndsAt f l d) (lies : f.LiesIn d i)
  | element {outer : Locator} {s : Step} {e : Nat} (last : l = outer.add s)
    (inside : ∀ selector, s ≠ .frame selector) (member : e ∈ es) (below : f.Below e i)

section
variable {f : Forest} {l outer : Locator} {sc : Scope} {es : List Nat} {i d : Nat}

theorem covers_documents {ds : List Nat} :
    (Scope.documents ds).covers f i = true ↔ ∃ d ∈ ds, f.LiesIn d i := by
  unfold Scope.covers Forest.LiesIn
  simp only [Option.any_eq_true, List.contains_iff_mem]
  constructor
  · rintro ⟨n, found, member⟩
    exact ⟨n.doc, member, n, found, rfl⟩
  · rintro ⟨d, member, n, found, rfl⟩
    exact ⟨n, found, member⟩

theorem covers_elements (ordered : f.Ordered) :
    (Scope.elements es).covers f i = true ↔ ∃ e ∈ es, f.Below e i := by
  unfold Scope.covers
  simp only [List.any_eq_true, List.contains_iff_mem, ordered.mem_ancestors]

theorem endsAt_page : EndsAt f .page d ↔ d = 0 := by
  constructor
  · intro ends
    cases ends with
    | page _ own => exact own
    | frame last => exact absurd last Locator.page_ne_add
  · exact .page rfl

theorem endsAt_frame {selector : String} {frames : List Nat} (found : resolve f (outer.css selector) = .ok frames) :
    EndsAt f (outer.add (.frame selector)) d ↔ ∃ e ∈ frames, f.Embeds e d := by
  constructor
  · intro ends
    cases ends with
    | page bare => exact absurd bare.symm Locator.page_ne_add
    | frame last found' member embeds =>
      obtain ⟨rfl, same⟩ := Locator.add_inj last
      cases same
      cases found.symm.trans found'
      exact ⟨_, member, embeds⟩
  · rintro ⟨e, member, embeds⟩
    exact .frame rfl found member embeds

/-- A locator that goes into frames leads to the documents it ends at. -/
theorem frame_reaches {selector : String} (reached : scopeOf f (outer.add (.frame selector)) = .ok sc) :
    ∃ frames, resolve f (outer.css selector) = .ok frames ∧
      sc = .documents (frames.filterMap fun i => (f.node? i).bind (·.content)) := by
  obtain ⟨start, before, stepped⟩ := scopeOf_add_ok.mp reached
  obtain ⟨frames, selected, rfl⟩ := step_frame_iff.mp stepped
  refine ⟨frames, resolve_eq_ok_iff.mpr ⟨.elements frames, ?_, rfl⟩, rfl⟩
  exact scopeOf_add_ok.mpr ⟨start, before, step_css_iff.mpr ⟨frames, selected, rfl⟩⟩

/-- The scope that a locator leads to covers what a search from it looks at. -/
theorem covers_iff (ordered : f.Ordered) (reached : scopeOf f l = .ok sc) :
    sc.covers f i = true ↔ Searches f l (sc.matched f) i := by
  rcases l.eq_page_or_add with rfl | ⟨outer, s, rfl⟩
  · cases reached
    rw [covers_documents]
    constructor
    · rintro ⟨d, own, lies⟩
      exact .document (.page rfl (List.mem_singleton.mp own)) lies
    · intro searches
      cases searches with
      | document ends lies => exact ⟨_, List.mem_singleton.mpr (endsAt_page.mp ends), lies⟩
      | element last => exact absurd last Locator.page_ne_add
  · rcases s.frame_or_inside with ⟨selector, rfl⟩ | inside
    · obtain ⟨frames, found, rfl⟩ := frame_reaches reached
      rw [covers_documents]
      simp only [List.mem_filterMap, Forest.embeds_iff]
      constructor
      · rintro ⟨d, embedded, lies⟩
        exact .document ((endsAt_frame found).mpr embedded) lies
      · intro searches
        cases searches with
        | document ends lies => exact ⟨_, (endsAt_frame found).mp ends, lies⟩
        | element last inside => exact absurd (Locator.add_inj last).2.symm (inside _)
    · obtain ⟨start, _, stepped⟩ := scopeOf_add_ok.mp reached
      obtain ⟨es, rfl, _⟩ := step_elements inside stepped
      rw [covers_elements ordered]
      constructor
      · rintro ⟨e, member, below⟩
        exact .element rfl inside member below
      · intro searches
        cases searches with
        | element _ _ member below => exact ⟨_, member, below⟩
        | document ends =>
          cases ends with
          | page bare => exact absurd bare.symm Locator.page_ne_add
          | frame last => exact absurd (Locator.add_inj last).2 (inside _)

/-- One more search finds what matches where it looks, and nothing else. -/
theorem resolve_css (ordered : f.Ordered) {selector : String} {groups : List Chain} (found : resolve f l = .ok es)
    (parsed : parseSelector selector = .ok groups) :
    ∃ more, resolve f (l.css selector) = .ok more ∧ ∀ i, i ∈ more ↔ Matches f groups i ∧ Searches f l es i := by
  obtain ⟨sc, reached, rfl⟩ := resolve_eq_ok_iff.mp found
  refine ⟨sc.search f (selected f groups), resolve_eq_ok_iff.mpr ⟨.elements _, ?_, rfl⟩, fun i => ?_⟩
  · exact scopeOf_add_ok.mpr ⟨sc, reached, step_css_iff.mpr ⟨_, select_parsed parsed, rfl⟩⟩
  · rw [Scope.mem_search, selected_iff ordered, covers_iff ordered reached]
    constructor
    · rintro ⟨_, searched, matching⟩
      exact ⟨matching, searched⟩
    · rintro ⟨matching, searched⟩
      exact ⟨Matches.place matching, searched, matching⟩

end

/-! ## Frames -/

/-- Everything that a scope leads to lies in some documents. -/
def Scope.StaysIn (f : Forest) (own : Nat → Prop) : Scope → Prop
  | .documents ds => ∀ d ∈ ds, own d
  | .elements es => ∀ i ∈ es, ∃ d, own d ∧ f.LiesIn d i

section
variable {f : Forest} {own : Nat → Prop} {sc out : Scope} {outer : Locator} {es : List Nat} {i : Nat}

theorem Scope.StaysIn.matched (stays : sc.StaysIn f own) (member : i ∈ sc.matched f) :
    ∃ d, own d ∧ f.LiesIn d i := by
  cases sc with
  | elements es => exact stays i member
  | documents ds =>
    obtain ⟨d, listed, first⟩ := List.mem_filterMap.mp member
    exact ⟨d, stays d listed, (Forest.mem_tops.mp (List.mem_of_head? first)).1⟩

/-- Neither a search nor a climb to a parent crosses from one document into another. -/
theorem step_stays (ordered : f.Ordered) {s : Step} (inside : ∀ selector, s ≠ .frame selector)
    (stays : sc.StaysIn f own) (stepped : step f sc s = .ok out) : out.StaysIn f own := by
  obtain ⟨es, rfl, _, gives⟩ := step_elements inside stepped
  intro i member
  cases gives i member with
  | picked matched => exact stays.matched matched
  | parent matched hangs =>
    obtain ⟨d, owned, lies⟩ := stays.matched matched
    exact ⟨d, owned, ordered.together hangs lies⟩
  | searched there covered =>
    cases sc with
    | documents ds =>
      obtain ⟨d, listed, lies⟩ := covers_documents.mp covered
      exact ⟨d, stays d listed, lies⟩
    | elements es =>
      obtain ⟨e, listed, below⟩ := (covers_elements ordered).mp covered
      obtain ⟨d, owned, lies⟩ := stays e listed
      exact ⟨d, owned, (ordered.below_lies below d).mp lies⟩

/-- Without a step into a frame a locator stays in the documents that it starts in. -/
theorem resolve_stays (ordered : f.Ordered) {after : List Step}
    (inside : ∀ s ∈ after, ∀ selector, s ≠ .frame selector)
    (found : resolve f ⟨outer.steps ++ after⟩ = .ok es) :
    ∃ start, scopeOf f outer = .ok start ∧ ∀ own, start.StaysIn f own → ∀ i ∈ es, ∃ d, own d ∧ f.LiesIn d i := by
  obtain ⟨sc, reached, rfl⟩ := resolve_eq_ok_iff.mp found
  unfold scopeOf at reached
  rw [List.foldlM_append] at reached
  cases first : outer.steps.foldlM (step f) (.documents [0]) with
  | error e => rw [first] at reached; cases reached
  | ok start =>
    rw [first] at reached
    refine ⟨start, first, fun own begun i member => ?_⟩
    have stays : sc.StaysIn f own :=
      foldlM_keeps reached (fun s listed _ _ held stepped => step_stays ordered (inside s listed) held stepped) begun
    exact stays.matched member

end

/-! ## Every document -/

/-- What scoping comes to in the forest of a document. -/
structure Scoped (document : List Element) (f : Forest) : Prop where
  /-- The elements of every document stand where they are written, the page's own at number 0. -/
  stands : StandAll f 0 none document (f.tops 0)
  /-- A search by selector finds exactly what matches where it looks. -/
  searches : ∀ l es selector groups, resolve f l = .ok es → parseSelector selector = .ok groups →
    ∃ found, resolve f (l.css selector) = .ok found ∧ ∀ i, i ∈ found ↔ Matches f groups i ∧ Searches f l es i
  /-- A locator that goes into no frame stays in the page's own document. -/
  own : ∀ l es, resolve f l = .ok es → (∀ s ∈ l.steps, ∀ selector, s ≠ .frame selector) → ∀ i ∈ es, f.LiesIn 0 i
  /-- A locator that goes into frames stays, after the last time, in what the elements there embed. -/
  framed : ∀ (outer : Locator) selector after es, resolve f ⟨(outer.add (.frame selector)).steps ++ after⟩ = .ok es →
    (∀ s ∈ after, ∀ selector, s ≠ .frame selector) → ∃ frames, resolve f (outer.css selector) = .ok frames ∧
      ∀ i ∈ es, ∃ d, (∃ e ∈ frames, f.Embeds e d) ∧ f.LiesIn d i
  /-- A document is what lies within its top elements. -/
  documents : ∀ d i, f.LiesIn d i ↔ ∃ t ∈ f.tops d, f.Within t i
  /-- No way down or up leads from one document into another. -/
  apart : ∀ a i, f.Below a i → ∀ d, f.LiesIn d a ↔ f.LiesIn d i

theorem build_scoped (document : List Element) : Scoped document (Forest.build document).1 := by
  have ordered : (Forest.build document).1.Ordered := build_ordered rfl
  constructor
  case stands => exact build_stands rfl
  case searches =>
    intro l es selector groups found parsed
    exact resolve_css ordered found parsed
  case own =>
    intro l es found inside i member
    have found' : resolve (Forest.build document).1 ⟨Locator.page.steps ++ l.steps⟩ = .ok es := found
    obtain ⟨start, reached, stays⟩ := resolve_stays ordered inside found'
    cases reached
    obtain ⟨d, rfl, lies⟩ := stays (· = 0) (fun d listed => List.mem_singleton.mp listed) i member
    exact lies
  case framed =>
    intro outer selector after es found inside
    obtain ⟨start, reached, stays⟩ := resolve_stays ordered inside found
    obtain ⟨frames, matched, rfl⟩ := frame_reaches reached
    refine ⟨frames, matched, stays _ fun d listed => ?_⟩
    obtain ⟨e, member, embeds⟩ := List.mem_filterMap.mp listed
    exact ⟨e, member, Forest.embeds_iff.mp embeds⟩
  case documents =>
    intro d i
    rw [← Forest.mem_document, (ordered.walked d).mem_iff]
  case apart =>
    intro a i below d
    exact ordered.below_lies below d

end PageSpec.Page
