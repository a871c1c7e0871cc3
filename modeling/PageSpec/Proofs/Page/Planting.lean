import PageSpec.Proofs.Page.Family
/-!
Numbering the elements of a document. Placing an element puts everything it holds into one stretch of
nodes: first itself, then its children, then the document it embeds. A node placed there hangs below
the given parent, inside the stretch, or nowhere, and nothing placed later hangs into the stretch. From
this it follows that the forest of a document is the document over again: children and embedded
documents read off the nodes are those of the elements, in their order.
-/
namespace PageSpec.Page

/-! ## One node -/

/-- A planting with one more node. -/
def Planting.place (p : Planting) (doc : Nat) (parent : Option Nat) (traits : Traits) (input : Input)
    (framed : Bool) : Planting :=
  { nodes := p.nodes ++ [⟨traits, parent, doc, if framed then some p.docs else none⟩]
    inputs := p.inputs ++ [input]
    docs := if framed then p.docs + 1 else p.docs }

section
variable {doc : Nat} {parent : Option Nat} {traits : Traits} {input : Input}

theorem plant_mk (frame : Option (List Element)) (children : List Element) (p : Planting) :
    plant doc parent (.mk traits input frame children) p =
      plantFrame p.docs frame (plantAll doc (some p.nodes.length) children
        (p.place doc parent traits input frame.isSome)) := rfl

theorem place_length (p : Planting) (doc : Nat) (parent : Option Nat) (traits : Traits) (input : Input)
    (framed : Bool) : (p.place doc parent traits input framed).nodes.length = p.nodes.length + 1 := by
  simp [Planting.place]

theorem place_extends (p : Planting) (framed : Bool) :
    p.nodes <+: (p.place doc parent traits input framed).nodes := List.prefix_append _ _

theorem place_here (p : Planting) (framed : Bool) :
    (p.place doc parent traits input framed).nodes[p.nodes.length]? =
      some ⟨traits, parent, doc, if framed then some p.docs else none⟩ := by
  simp [Planting.place]

theorem place_docs_le (p : Planting) (doc : Nat) (parent : Option Nat) (traits : Traits) (input : Input)
    (framed : Bool) : p.docs ≤ (p.place doc parent traits input framed).docs := by
  cases framed
  · exact Nat.le_refl _
  · exact Nat.le_succ _

end

/-- Placing one node keeps a property of plantings. -/
def Planting.Keeps (P : Planting → Prop) : Prop :=
  ∀ p doc parent traits input framed, P p → P (p.place doc parent traits input framed)

mutual
/-- What placing one node keeps is kept by placing elements with all they hold. -/
theorem plant_keeps {P : Planting → Prop} (kept : Planting.Keeps P) :
    ∀ (e : Element) {doc : Nat} {parent : Option Nat} {p : Planting}, P p → P (plant doc parent e p)
  | .mk _ _ frame children, _, _, p, now =>
    plantFrame_keeps kept frame (plantAll_keeps kept children (kept p _ _ _ _ frame.isSome now))
theorem plantAll_keeps {P : Planting → Prop} (kept : Planting.Keeps P) :
    ∀ (es : List Element) {doc : Nat} {parent : Option Nat} {p : Planting}, P p → P (plantAll doc parent es p)
  | [], _, _, _, now => now
  | e :: es, _, _, _, now => plantAll_keeps kept es (plant_keeps kept e now)
theorem plantFrame_keeps {P : Planting → Prop} (kept : Planting.Keeps P) :
    ∀ (frame : Option (List Element)) {doc : Nat} {p : Planting}, P p → P (plantFrame doc frame p)
  | none, _, _, now => now
  | some es, _, _, now => plantAll_keeps kept es now
end

/-- Embedded documents are counted from 1, in the order of the nodes that embed them. -/
def Planting.Counted (p : Planting) : Prop :=
  1 ≤ p.docs ∧ p.nodes.filterMap (·.content) = List.range' 1 (p.docs - 1)

theorem place_counted (p : Planting) (doc : Nat) (parent : Option Nat) (traits : Traits) (input : Input)
    (framed : Bool) (counted : p.Counted) : (p.place doc parent traits input framed).Counted := by
  obtain ⟨positive, same⟩ := counted
  cases framed with
  | false => exact ⟨positive, by simpa [Planting.place] using same⟩
  | true =>
    refine ⟨Nat.le_succ_of_le positive, ?_⟩
    have more := List.range'_append_1 (s := 1) (m := p.docs - 1) (n := 1)
    rw [show 1 + (p.docs - 1) = p.docs by omega, show p.docs - 1 + 1 = p.docs by omega] at more
    simp only [Planting.place, ↓reduceIte, List.filterMap_append, same, Nat.add_sub_cancel]
    exact more

/-- Every node has its input. -/
def Planting.Paired (p : Planting) : Prop := p.inputs.length = p.nodes.length

theorem place_paired (p : Planting) (doc : Nat) (parent : Option Nat) (traits : Traits) (input : Input)
    (framed : Bool) (paired : p.Paired) : (p.place doc parent traits input framed).Paired := by
  unfold Planting.Paired at paired ⊢
  simp [Planting.place, paired]

/-! ## What is placed -/

/-- Number `i` of a planting, placed since an earlier one, hangs on its own account: on top of an
embedded document, or below a node that was placed since as well. -/
inductive Inner (doc : Nat) (p q : Planting) (i : Nat) (n : Node) : Prop
  | top (hangs : n.parent = none) (lies : p.docs ≤ n.doc ∧ n.doc < q.docs)
  | child {m : Nat} {u : Node} (hangs : n.parent = some m) (inside : p.nodes.length ≤ m ∧ m < i)
    (there : q.nodes[m]? = some u) (together : u.doc = n.doc)
    (lies : n.doc = doc ∨ p.docs ≤ n.doc ∧ n.doc < q.docs)

/-- It hangs where the whole is hung, or on its own account. -/
inductive Fresh (doc : Nat) (parent : Option Nat) (p q : Planting) (i : Nat) (n : Node) : Prop
  | sibling (hangs : n.parent = parent) (lies : n.doc = doc)
  | inner (inner : Inner doc p q i n)

/-- A planting goes on from an earlier one by placing elements of a document under a parent. -/
structure Grows (doc : Nat) (parent : Option Nat) (p q : Planting) : Prop where
  nodes : p.nodes <+: q.nodes
  docs : p.docs ≤ q.docs
  fresh : ∀ {i n}, p.nodes.length ≤ i → q.nodes[i]? = some n → Fresh doc parent p q i n

theorem getElem?_extended {as bs : List Node} (prefixed : as <+: bs) {i : Nat} (bound : i < as.length) :
    bs[i]? = as[i]? := by
  rw [List.prefix_iff_getElem?.mp prefixed i bound, List.getElem?_eq_getElem bound]

theorem found_extended {as bs : List Node} (prefixed : as <+: bs) {i : Nat} {n : Node}
    (found : as[i]? = some n) : bs[i]? = some n :=
  (getElem?_extended prefixed (List.getElem?_eq_some_iff.mp found).1).trans found

theorem found_lt {as : List Node} {i : Nat} {n : Node} (found : as[i]? = some n) : i < as.length :=
  (List.getElem?_eq_some_iff.mp found).1

section
variable {doc : Nat} {parent : Option Nat} {p q r : Planting} {i : Nat} {n : Node}

/-- A parent that was placed since stands before the node. -/
theorem Inner.hangs_since {m : Nat} (inner : Inner doc p q i n) (hangs : n.parent = some m) :
    p.nodes.length ≤ m ∧ m < i := by
  cases inner with
  | top alone => cases alone.symm.trans hangs
  | child hangs' inside => cases hangs'.symm.trans hangs; exact inside

/-- A node lies in the document it is placed in or in one that is begun since. -/
theorem Fresh.lies_since (fresh : Fresh doc parent p q i n) :
    n.doc = doc ∨ p.docs ≤ n.doc ∧ n.doc < q.docs := by
  cases fresh with
  | sibling _ lies => exact .inl lies
  | inner inner =>
    cases inner with
    | top _ lies => exact .inr lies
    | child _ _ _ _ lies => exact lies

/-- A node hangs as before when more is placed. -/
theorem Inner.extend (inner : Inner doc p q i n) (nodes : q.nodes <+: r.nodes) (docs : q.docs ≤ r.docs) :
    Inner doc p r i n := by
  cases inner with
  | top hangs lies => exact .top hangs (by omega)
  | child hangs inside there together lies =>
    exact .child hangs inside (found_extended nodes there) together (by omega)

theorem Inner.since (inner : Inner doc q r i n) (nodes : p.nodes <+: q.nodes) (docs : p.docs ≤ q.docs) :
    Inner doc p r i n := by
  have longer := nodes.length_le
  cases inner with
  | top hangs lies => exact .top hangs (by omega)
  | child hangs inside there together lies => exact .child hangs (by omega) there together (by omega)

theorem Grows.refl (p : Planting) : Grows doc parent p p where
  nodes := List.prefix_refl _
  docs := Nat.le_refl _
  fresh bound found := absurd (found_lt found) (by omega)

theorem Grows.trans (first : Grows doc parent p q) (second : Grows doc parent q r) :
    Grows doc parent p r where
  nodes := first.nodes.trans second.nodes
  docs := Nat.le_trans first.docs second.docs
  fresh {i n} bound found := by
    by_cases early : i < q.nodes.length
    · cases first.fresh bound ((getElem?_extended second.nodes early).symm.trans found) with
      | sibling hangs lies => exact .sibling hangs lies
      | inner inner => exact .inner (inner.extend second.nodes second.docs)
    · cases second.fresh (by omega) found with
      | sibling hangs lies => exact .sibling hangs lies
      | inner inner => exact .inner (inner.since first.nodes first.docs)

end

/-- An element is placed, with its children and the document it embeds after it. -/
structure Rooted (doc : Nat) (parent : Option Nat) (p q : Planting) : Prop extends Grows doc parent p q where
  here : ∃ n, q.nodes[p.nodes.length]? = some n ∧ n.parent = parent ∧ n.doc = doc
  rest : ∀ {i n}, p.nodes.length < i → q.nodes[i]? = some n → Inner doc p q i n

section
variable {doc : Nat} {parent : Option Nat} {traits : Traits} {input : Input} {framed : Bool}
  {p s q : Planting}

theorem element_rooted
    (children : Grows doc (some p.nodes.length) (p.place doc parent traits input framed) s)
    (frame : Grows p.docs none s q) (plain : framed = false → q = s) : Rooted doc parent p q := by
  have longer := place_length p doc parent traits input framed
  have counted := place_docs_le p doc parent traits input framed
  have here := found_extended children.nodes (place_here p framed)
  have here' := found_extended frame.nodes here
  have docs := children.docs
  have docs' := frame.docs
  have rest : ∀ {i n}, p.nodes.length < i → q.nodes[i]? = some n → Inner doc p q i n := by
    intro i n later found
    by_cases early : i < s.nodes.length
    · refine Inner.extend (q := s) ?_ frame.nodes frame.docs
      cases children.fresh (by omega) ((getElem?_extended frame.nodes early).symm.trans found) with
      | sibling hangs lies => exact .child hangs ⟨Nat.le_refl _, later⟩ here lies.symm (.inl lies)
      | inner inner => exact inner.since (place_extends p framed) counted
    · cases framed with
      | false => exact absurd (found_lt (plain rfl ▸ found)) early
      | true =>
        have embedded : p.docs < s.docs := docs
        have grown := children.nodes.length_le
        cases frame.fresh (by omega) found with
        | sibling hangs lies => exact .top hangs (by omega)
        | inner inner =>
          cases inner with
          | top hangs lies => exact .top hangs (by omega)
          | child hangs inside there together lies =>
            exact .child hangs (by omega) there together (by omega)
  refine ⟨⟨?_, by omega, fun {i n} bound found => ?_⟩, ⟨_, here', rfl, rfl⟩, rest⟩
  · exact ((place_extends p framed).trans children.nodes).trans frame.nodes
  · rcases Nat.eq_or_lt_of_le bound with rfl | later
    · cases here'.symm.trans found
      exact .sibling rfl rfl
    · exact .inner (rest later found)

end

mutual
theorem plant_rooted (doc : Nat) (parent : Option Nat) :
    ∀ (e : Element) (p : Planting), Rooted doc parent p (plant doc parent e p)
  | .mk traits input frame children, p => by
    rw [plant_mk]
    refine element_rooted (plantAll_grows doc _ children _) (plantFrame_grows p.docs frame _) fun plain => ?_
    cases frame with
    | none => rfl
    | some es => cases plain
theorem plantAll_grows (doc : Nat) (parent : Option Nat) :
    ∀ (es : List Element) (p : Planting), Grows doc parent p (plantAll doc parent es p)
  | [], p => .refl p
  | e :: es, p => (plant_rooted doc parent e p).toGrows.trans (plantAll_grows doc parent es _)
theorem plantFrame_grows (doc : Nat) :
    ∀ (frame : Option (List Element)) (p : Planting), Grows doc none p (plantFrame doc frame p)
  | none, p => .refl p
  | some es, p => plantAll_grows doc none es p
end

/-! ## Where the elements of a list are placed -/

/-- The numbers that the elements of a list get. -/
def spots (doc : Nat) (parent : Option Nat) : List Element → Planting → List Nat
  | [], _ => []
  | e :: es, p => p.nodes.length :: spots doc parent es (plant doc parent e p)

/-- The parent is placed already, and the document is begun. -/
structure Begun (doc : Nat) (parent : Option Nat) (p : Planting) : Prop where
  hangs : ∀ m, parent = some m → m < p.nodes.length
  lies : doc < p.docs

theorem Begun.extend {doc : Nat} {parent : Option Nat} {p q : Planting} (begun : Begun doc parent p)
    (nodes : p.nodes <+: q.nodes) (docs : p.docs ≤ q.docs) : Begun doc parent q where
  hangs m same := Nat.lt_of_lt_of_le (begun.hangs m same) nodes.length_le
  lies := Nat.lt_of_lt_of_le begun.lies docs

section
variable {doc : Nat} {parent : Option Nat}

/-- What hangs on its own account hangs neither below the parent nor on top of the document. -/
theorem Inner.apart {p q : Planting} {i : Nat} {n : Node} (inner : Inner doc p q i n)
    (begun : Begun doc parent p) (hangs : n.parent = parent) (lies : n.doc = doc) : False := by
  have begunDoc := begun.lies
  cases inner with
  | top _ range => omega
  | child hangs' inside =>
    have bound := begun.hangs _ (hangs.symm.trans hangs')
    omega

theorem mem_spots {j : Nat} : ∀ (es : List Element) {p : Planting}, Begun doc parent p →
    (j ∈ spots doc parent es p ↔ p.nodes.length ≤ j ∧
      ∃ n, (plantAll doc parent es p).nodes[j]? = some n ∧ n.parent = parent ∧ n.doc = doc)
  | [], p, _ => by
    simp only [spots, List.not_mem_nil, false_iff]
    rintro ⟨bound, n, found, _⟩
    exact absurd (found_lt found) (Nat.not_lt.mpr bound)
  | e :: es, p, begun => by
    have rooted := plant_rooted doc parent e p
    have others := plantAll_grows doc parent es (plant doc parent e p)
    have begun' := begun.extend rooted.nodes rooted.docs
    obtain ⟨here, there, hung, laid⟩ := rooted.here
    have longer := found_lt there
    rw [spots, List.mem_cons, mem_spots es begun', plantAll]
    constructor
    · rintro (rfl | ⟨bound, found⟩)
      · exact ⟨Nat.le_refl _, here, found_extended others.nodes there, hung, laid⟩
      · exact ⟨by omega, found⟩
    · rintro ⟨bound, n, found, hangs, lies⟩
      by_cases early : j < (plant doc parent e p).nodes.length
      · rcases Nat.eq_or_lt_of_le bound with same | later
        · exact .inl same.symm
        · have inner := rooted.rest later ((getElem?_extended others.nodes early).symm.trans found)
          exact (inner.apart begun hangs lies).elim
      · exact .inr ⟨by omega, n, found, hangs, lies⟩

theorem spots_sorted : ∀ (es : List Element) {p : Planting}, Begun doc parent p →
    (spots doc parent es p).Pairwise (· < ·)
  | [], _, _ => .nil
  | e :: es, p, begun => by
    have rooted := plant_rooted doc parent e p
    have begun' := begun.extend rooted.nodes rooted.docs
    obtain ⟨_, there, _⟩ := rooted.here
    have longer := found_lt there
    refine List.pairwise_cons.mpr ⟨fun j member => ?_, spots_sorted es begun'⟩
    have bound := ((mem_spots es begun').mp member).1
    omega

end

/-! ## Nothing hangs into a finished stretch -/

/-- A node hangs clear of everything that was placed between two plantings. -/
structure Clear (p q : Planting) (n : Node) : Prop where
  hangs : ∀ m, n.parent = some m → m < p.nodes.length ∨ q.nodes.length ≤ m
  lies : n.doc < p.docs ∨ q.docs ≤ n.doc

/-- A forest goes on from a planting, and all its nodes but those placed since an earlier one hang clear
of these. -/
structure Settled (f : Forest) (p q : Planting) : Prop where
  nodes : q.nodes <+: f.nodes
  clear : ∀ {i n}, f.node? i = some n → i < p.nodes.length ∨ q.nodes.length ≤ i → Clear p q n

section
variable {doc : Nat} {parent : Option Nat} {p q r s : Planting} {i : Nat} {n : Node}

theorem Clear.within (clear : Clear p s n) (low : p.nodes.length ≤ q.nodes.length ∧ p.docs ≤ q.docs)
    (high : r.nodes.length ≤ s.nodes.length ∧ r.docs ≤ s.docs) : Clear q r n where
  hangs m same := by have := clear.hangs m same; omega
  lies := by have := clear.lies; omega

/-- What is placed first hangs clear of what is placed next. -/
theorem Fresh.clear_of_next (fresh : Fresh doc parent p q i n) (bound : i < q.nodes.length)
    (begun : Begun doc parent q) : Clear q r n := by
  have begunDoc := begun.lies
  have lies := fresh.lies_since
  refine ⟨fun m same => .inl ?_, by omega⟩
  cases fresh with
  | sibling hangs => exact begun.hangs m (hangs.symm.trans same)
  | inner inner => exact Nat.lt_trans (inner.hangs_since same).2 bound

/-- What is placed next hangs clear of what was placed first. -/
theorem Fresh.clear_of_first (fresh : Fresh doc parent q r i n)
    (hung : ∀ m, parent = some m → m < p.nodes.length ∨ q.nodes.length ≤ m)
    (laid : doc < p.docs ∨ q.docs ≤ doc) : Clear p q n := by
  have lies := fresh.lies_since
  refine ⟨fun m same => ?_, by omega⟩
  cases fresh with
  | sibling hangs => exact hung m (hangs.symm.trans same)
  | inner inner => exact .inr (inner.hangs_since same).1

/-- A settled stretch is settled part by part. -/
theorem Settled.split {f : Forest} {doc' : Nat} {parent' : Option Nat} (settled : Settled f p r)
    (first : Grows doc parent p q) (second : Grows doc' parent' q r) (begun : Begun doc parent q)
    (hung : ∀ m, parent' = some m → m < p.nodes.length ∨ q.nodes.length ≤ m)
    (laid : doc' < p.docs ∨ q.docs ≤ doc') : Settled f p q ∧ Settled f q r := by
  have longer := first.nodes.length_le
  have longer' := second.nodes.length_le
  have docs := first.docs
  have docs' := second.docs
  refine ⟨⟨second.nodes.trans settled.nodes, fun {i n} found outside => ?_⟩,
    ⟨settled.nodes, fun {i n} found outside => ?_⟩⟩
  · by_cases next : q.nodes.length ≤ i ∧ i < r.nodes.length
    · have fresh := second.fresh next.1 ((getElem?_extended settled.nodes next.2).symm.trans found)
      exact fresh.clear_of_first hung laid
    · exact (settled.clear found (by omega)).within (by omega) (by omega)
  · by_cases before : p.nodes.length ≤ i ∧ i < q.nodes.length
    · have prefixed := second.nodes.trans settled.nodes
      have fresh := first.fresh before.1 ((getElem?_extended prefixed before.2).symm.trans found)
      exact fresh.clear_of_next before.2 begun
    · exact (settled.clear found (by omega)).within (by omega) (by omega)

end
end PageSpec.Page
