import PageSpec.Proofs.Page.Planting
/-!
The forest of a document is the document over again. Every element stands at a node with its traits;
the children that are read off the parents of nodes are the nodes of its children, in their order, and
the top elements of the document it embeds are those of the document that the node embeds. Nodes of one
document are numbered as a walk through it meets them.
-/
namespace PageSpec.Page

mutual
/-- An element stands at a node, with its children and the document it embeds. -/
def Stands (f : Forest) (doc : Nat) (parent : Option Nat) : Element → Nat → Prop
  | .mk traits _ frame children, i =>
    ∃ content, f.node? i = some ⟨traits, parent, doc, content⟩ ∧
      StandAll f doc (some i) children (f.children i) ∧ StandInside f frame content
/-- Elements stand at nodes, one by one. -/
def StandAll (f : Forest) (doc : Nat) (parent : Option Nat) : List Element → List Nat → Prop
  | [], is => is = []
  | e :: es, is => ∃ i rest, is = i :: rest ∧ Stands f doc parent e i ∧ StandAll f doc parent es rest
/-- An embedded document stands at the top of the document that a node embeds. -/
def StandInside (f : Forest) : Option (List Element) → Option Nat → Prop
  | none, content => content = none
  | some es, content => ∃ d, content = some d ∧ StandAll f d none es (f.tops d)
end

/-! ## Stretches -/

/-- The nodes of a document from one number on up to another. -/
def stretch (f : Forest) (doc low high : Nat) : List Nat :=
  (List.range' low (high - low)).filter fun i => (f.node? i).any (·.doc == doc)

section
variable {f : Forest} {doc low middle high : Nat}

theorem liesIn_iff {i : Nat} : (f.node? i).any (·.doc == doc) = true ↔ f.LiesIn doc i := by
  unfold Forest.LiesIn
  cases f.node? i <;> simp

theorem mem_stretch {i : Nat} : i ∈ stretch f doc low high ↔ (low ≤ i ∧ i < high) ∧ f.LiesIn doc i := by
  unfold stretch
  rw [List.mem_filter, List.mem_range'_1, liesIn_iff]
  constructor
  · rintro ⟨range, lies⟩; exact ⟨by omega, lies⟩
  · rintro ⟨range, lies⟩; exact ⟨by omega, lies⟩

theorem stretch_sorted : (stretch f doc low high).Pairwise (· < ·) :=
  (List.pairwise_lt_range' 1).filter _

theorem stretch_append (before : low ≤ middle) (after : middle ≤ high) :
    stretch f doc low middle ++ stretch f doc middle high = stretch f doc low high := by
  unfold stretch
  have meets : low + (middle - low) = middle := by omega
  have joined := List.range'_append_1 (s := low) (m := middle - low) (n := high - middle)
  rw [meets, show middle - low + (high - middle) = high - low by omega] at joined
  rw [← List.filter_append, joined]

theorem stretch_empty (elsewhere : ∀ i, low ≤ i → i < high → ¬ f.LiesIn doc i) :
    stretch f doc low high = [] := by
  refine List.eq_nil_iff_forall_not_mem.mpr fun i member => ?_
  obtain ⟨range, lies⟩ := mem_stretch.mp member
  exact elsewhere i range.1 range.2 lies

theorem document_eq_stretch (only : ∀ i, f.LiesIn doc i → low ≤ i ∧ i < high) :
    f.document doc = stretch f doc low high := by
  refine (f.document_sorted doc).eq_of_mem_iff stretch_sorted fun i => ?_
  rw [Forest.mem_document, mem_stretch]
  exact ⟨fun lies => ⟨only i lies, lies⟩, fun both => both.2⟩

end

/-! ## One element -/

section
variable {f : Forest} {doc : Nat} {parent : Option Nat} {traits : Traits} {input : Input} {framed : Bool}
  {children : List Element} {p s q : Planting}

/-- An element and what it holds have been placed between two plantings, with a third in between before
the document it embeds. -/
structure Laid (doc : Nat) (parent : Option Nat) (traits : Traits) (input : Input) (framed : Bool)
    (p s q : Planting) : Prop where
  children : Grows doc (some p.nodes.length) (p.place doc parent traits input framed) s
  frame : Grows p.docs none s q

/-- Where a node of the forest is, seen from an element that has been placed. -/
inductive Seat (doc : Nat) (parent : Option Nat) (traits : Traits) (input : Input) (framed : Bool)
    (p s q : Planting) (i : Nat) (n : Node) : Prop
  | elsewhere (clear : Clear p q n)
  | here (same : i = p.nodes.length) (hangs : n.parent = parent) (lies : n.doc = doc)
  | below (range : p.nodes.length < i ∧ i < s.nodes.length) (found : s.nodes[i]? = some n)
    (fresh : Fresh doc (some p.nodes.length) (p.place doc parent traits input framed) s i n)
  | inside (range : s.nodes.length ≤ i ∧ i < q.nodes.length) (fresh : Fresh p.docs none s q i n)

theorem Laid.seat {i : Nat} {n : Node} (laid : Laid doc parent traits input framed p s q)
    (settled : Settled f p q) (found : f.node? i = some n) :
    Seat doc parent traits input framed p s q i n := by
  have one := place_length p doc parent traits input framed
  have nodes := laid.frame.nodes.trans settled.nodes
  by_cases outside : i < p.nodes.length ∨ q.nodes.length ≤ i
  · exact .elsewhere (settled.clear found outside)
  · by_cases early : i < s.nodes.length
    · have found' := (getElem?_extended nodes early).symm.trans found
      rcases Nat.eq_or_lt_of_le (show p.nodes.length ≤ i by omega) with rfl | later
      · cases (found_extended laid.children.nodes (place_here p framed)).symm.trans found'
        exact .here rfl rfl rfl
      · exact .below ⟨later, early⟩ found' (laid.children.fresh (by omega) found')
    · have range : s.nodes.length ≤ i ∧ i < q.nodes.length := by omega
      have found' := (getElem?_extended settled.nodes range.2).symm.trans found
      exact .inside range (laid.frame.fresh range.1 found')

/-- The children of a new node are the nodes of the element's children. -/
theorem children_eq_spots (settled : Settled f p q) (begun : Begun doc parent p)
    (laid : Laid doc parent traits input framed p
      (plantAll doc (some p.nodes.length) children (p.place doc parent traits input framed)) q) :
    f.children p.nodes.length =
      spots doc (some p.nodes.length) children (p.place doc parent traits input framed) := by
  have one := place_length p doc parent traits input framed
  have counted := place_docs_le p doc parent traits input framed
  have longer := laid.children.nodes.length_le
  have longer' := laid.frame.nodes.length_le
  have begun' : Begun doc (some p.nodes.length) (p.place doc parent traits input framed) :=
    ⟨fun m same => by cases same; omega, Nat.lt_of_lt_of_le begun.lies counted⟩
  refine (f.children_sorted _).eq_of_mem_iff (spots_sorted children begun') fun i => ?_
  rw [Forest.mem_children, mem_spots children begun']
  constructor
  · intro hangs
    obtain ⟨n, found, hangs⟩ := Option.bind_eq_some_iff.mp hangs
    cases laid.seat settled found with
    | elsewhere clear => have := clear.hangs _ hangs; omega
    | here same hangs' lies => have := begun.hangs _ (hangs'.symm.trans hangs); omega
    | below range found fresh =>
      refine ⟨by omega, n, found, hangs, ?_⟩
      cases fresh with
      | sibling _ lies => exact lies
      | inner inner =>
        have := inner.hangs_since hangs
        omega
    | inside range fresh =>
      cases fresh with
      | sibling alone => exact nomatch alone.symm.trans hangs
      | inner inner =>
        have := inner.hangs_since hangs
        omega
  · rintro ⟨_, n, found, hangs, _⟩
    have found' := found_extended (laid.frame.nodes.trans settled.nodes) found
    exact Option.bind_eq_some_iff.mpr ⟨n, found', hangs⟩

/-- The nodes of the document that a new node embeds are placed after the node's children. -/
theorem embedded_lies (settled : Settled f p q) (begun : Begun doc parent p)
    (laid : Laid doc parent traits input true p s q) {i : Nat} (lies : f.LiesIn p.docs i) :
    s.nodes.length ≤ i ∧ i < q.nodes.length := by
  obtain ⟨n, found, lies⟩ := lies
  have begunDoc := begun.lies
  have docs : p.docs + 1 ≤ s.docs := laid.children.docs
  have docs' := laid.frame.docs
  have next : (p.place doc parent traits input true).docs = p.docs + 1 := rfl
  cases laid.seat settled found with
  | elsewhere clear => have := clear.lies; omega
  | here _ _ lies' => omega
  | below _ _ fresh => have := fresh.lies_since; omega
  | inside range _ => exact range

/-- What an element holds is settled where the element is. -/
theorem settled_below (settled : Settled f p q) (begun : Begun doc parent p)
    (laid : Laid doc parent traits input framed p s q) :
    Settled f (p.place doc parent traits input framed) q := by
  have one := place_length p doc parent traits input framed
  have counted := place_docs_le p doc parent traits input framed
  have begunDoc := begun.lies
  refine ⟨settled.nodes, fun {i n} found outside => ?_⟩
  cases laid.seat settled found with
  | elsewhere clear => exact clear.within (by omega) (by omega)
  | here _ hangs lies =>
    refine ⟨fun m same => ?_, by omega⟩
    have := begun.hangs m (hangs.symm.trans same)
    omega
  | below range =>
    have := laid.frame.nodes.length_le
    omega
  | inside range =>
    have := laid.children.nodes.length_le
    omega

/-- The document that a new node embeds is settled after the node's children. -/
theorem settled_inside (settled : Settled f p q) (begun : Begun doc parent p)
    (laid : Laid doc parent traits input true p s q) :
    Settled f (p.place doc parent traits input true) s ∧ Settled f s q := by
  have one := place_length p doc parent traits input true
  have next : (p.place doc parent traits input true).docs = p.docs + 1 := rfl
  have longer := laid.children.nodes.length_le
  have docs := laid.children.docs
  have begunDoc := begun.lies
  have begun' : Begun doc (some p.nodes.length) s := ⟨fun m same => by cases same; omega, by omega⟩
  exact (settled_below settled begun laid).split laid.children laid.frame begun'
    (fun _ same => nomatch same) (.inl (by omega))

/-- The stretch of an element is its node and the stretch of its children. -/
theorem stretch_element (settled : Settled f p q) (begun : Begun doc parent p)
    (laid : Laid doc parent traits input framed p s q) (plain : framed = false → q = s) :
    stretch f doc p.nodes.length q.nodes.length =
      p.nodes.length :: stretch f doc (p.place doc parent traits input framed).nodes.length s.nodes.length := by
  have one := place_length p doc parent traits input framed
  have longer := laid.children.nodes.length_le
  have longer' := laid.frame.nodes.length_le
  have nodes := laid.frame.nodes.trans settled.nodes
  have here : stretch f doc p.nodes.length (p.nodes.length + 1) = [p.nodes.length] := by
    have lies : f.LiesIn doc p.nodes.length :=
      ⟨_, found_extended (laid.children.nodes.trans nodes) (place_here p framed), rfl⟩
    unfold stretch
    rw [Nat.add_sub_cancel_left, List.range'_one]
    exact List.filter_eq_self.mpr (by simpa using liesIn_iff.mpr lies)
  have rest : stretch f doc s.nodes.length q.nodes.length = [] := by
    refine stretch_empty fun i low high lies => ?_
    obtain ⟨n, found, lies⟩ := lies
    cases framed with
    | false => rw [plain rfl] at high; omega
    | true =>
      have docs : p.docs + 1 ≤ s.docs := laid.children.docs
      have begunDoc := begun.lies
      have fresh := laid.frame.fresh low ((getElem?_extended settled.nodes high).symm.trans found)
      have := fresh.lies_since
      omega
  have first : p.nodes.length ≤ p.nodes.length + 1 := Nat.le_succ _
  have inside : p.nodes.length + 1 ≤ s.nodes.length := by omega
  rw [← stretch_append first (inside.trans longer'), here, one, ← stretch_append inside longer', rest,
    List.append_nil, List.singleton_append]

end

/-! ## Lists that are collected -/

/-- What is collected on the way: for every node that is placed the numbers of its children, and for every embedded
document those of its top elements. -/
structure Lists where
  children : List (Nat × List Nat)
  tops : List (Nat × List Nat)

mutual
/-- What placing an element collects: each list has the numbers that the elements of one list are placed at. -/
def lists (doc : Nat) (parent : Option Nat) : Element → Planting → Lists
  | .mk traits input frame children, p =>
    let here := p.nodes.length
    let placed := p.place doc parent traits input frame.isSome
    let below := listsAll doc (some here) children placed
    let inside := listsFrame p.docs frame (plantAll doc (some here) children placed)
    ⟨(here, spots doc (some here) children placed) :: (below.children ++ inside.2.children),
      inside.1 ++ (below.tops ++ inside.2.tops)⟩
def listsAll (doc : Nat) (parent : Option Nat) : List Element → Planting → Lists
  | [], _ => ⟨[], []⟩
  | e :: es, p =>
    let first := lists doc parent e p
    let others := listsAll doc parent es (plant doc parent e p)
    ⟨first.children ++ others.children, first.tops ++ others.tops⟩
/-- The list of an embedded document itself comes apart from those of what is in it. -/
def listsFrame (doc : Nat) : Option (List Element) → Planting → List (Nat × List Nat) × Lists
  | none, _ => ([], ⟨[], []⟩)
  | some es, p => ([(doc, spots doc none es p)], listsAll doc none es p)
end

section
variable {doc : Nat} {parent : Option Nat} {traits : Traits} {input : Input} {children : List Element} {p : Planting}

theorem lists_plain :
    let placed := p.place doc parent traits input false
    let below := listsAll doc (some p.nodes.length) children placed
    lists doc parent (.mk traits input none children) p =
      ⟨(p.nodes.length, spots doc (some p.nodes.length) children placed) :: below.children, below.tops⟩ := by
  simp [lists, listsFrame]

theorem lists_framed {es : List Element} :
    let placed := p.place doc parent traits input true
    let s := plantAll doc (some p.nodes.length) children placed
    let below := listsAll doc (some p.nodes.length) children placed
    let inside := listsAll p.docs none es s
    lists doc parent (.mk traits input (some es) children) p =
      ⟨(p.nodes.length, spots doc (some p.nodes.length) children placed) :: (below.children ++ inside.children),
        (p.docs, spots p.docs none es s) :: (below.tops ++ inside.tops)⟩ := by
  simp [lists, listsFrame]

end

/-- What a view says of each number from one up to another. -/
def listing (view : Nat → List Nat) (low high : Nat) : List (Nat × List Nat) :=
  (List.range' low (high - low)).map fun i => (i, view i)

section
variable {view : Nat → List Nat} {low middle high : Nat}

theorem listing_self : listing view low low = [] := by rw [listing, Nat.sub_self]; rfl

theorem listing_append (before : low ≤ middle) (after : middle ≤ high) :
    listing view low middle ++ listing view middle high = listing view low high := by
  have joined := List.range'_append_1 (s := low) (m := middle - low) (n := high - middle)
  rw [show low + (middle - low) = middle by omega, show middle - low + (high - middle) = high - low by omega] at joined
  rw [listing, listing, listing, ← List.map_append, joined]

theorem listing_cons (inside : low + 1 ≤ high) :
    listing view low high = (low, view low) :: listing view (low + 1) high := by
  rw [← listing_append (Nat.le_succ low) inside, listing, Nat.succ_sub (Nat.le_refl low), Nat.sub_self]
  rfl

end

/-- What has been collected between two plantings is what the forest shows of each node and document placed there. -/
structure Listed (f : Forest) (p q : Planting) (ls : Lists) : Prop where
  children : ls.children = listing f.children p.nodes.length q.nodes.length
  tops : ls.tops = listing f.tops p.docs q.docs

theorem listed_append {f : Forest} {p s q : Planting} {ls ms : Lists} (first : Listed f p s ls)
    (second : Listed f s q ms) (nodes : p.nodes.length ≤ s.nodes.length ∧ s.nodes.length ≤ q.nodes.length)
    (docs : p.docs ≤ s.docs ∧ s.docs ≤ q.docs) :
    Listed f p q ⟨ls.children ++ ms.children, ls.tops ++ ms.tops⟩ where
  children := by rw [first.children, second.children, listing_append nodes.1 nodes.2]
  tops := by rw [first.tops, second.tops, listing_append docs.1 docs.2]

/-! ## All elements -/

/-- Everything placed between two plantings is numbered as walks meet it: the nodes of the document that
is being placed, from some nodes on, and every document that is embedded on the way. -/
structure Numbered (f : Forest) (doc : Nat) (p q : Planting) (starts : List Nat) : Prop where
  way : f.Walk starts (stretch f doc p.nodes.length q.nodes.length)
  embedded : ∀ d, p.docs ≤ d → d < q.docs → f.Walk (f.tops d) (f.document d)

section
variable {f : Forest} {doc : Nat} {parent : Option Nat} {p q : Planting}

/-- The top elements of a document are the nodes of its list of elements. -/
theorem tops_eq_spots {es : List Element} (begun : Begun doc none p)
    (nodes : (plantAll doc none es p).nodes <+: f.nodes)
    (only : ∀ i, f.LiesIn doc i → p.nodes.length ≤ i ∧ i < (plantAll doc none es p).nodes.length) :
    f.tops doc = spots doc none es p := by
  have sorted : (f.tops doc).Pairwise (· < ·) := (f.document_sorted doc).filter _
  refine sorted.eq_of_mem_iff (spots_sorted es begun) fun i => ?_
  rw [Forest.mem_tops, mem_spots es begun]
  constructor
  · rintro ⟨lies, alone⟩
    obtain ⟨low, high⟩ := only i lies
    obtain ⟨n, found, lies⟩ := lies
    have alone : n.parent = none := by
      unfold Forest.parent? at alone
      rwa [found] at alone
    exact ⟨low, n, (getElem?_extended nodes high).symm.trans found, alone, lies⟩
  · rintro ⟨_, n, found, alone, lies⟩
    have found' : f.node? i = some n := found_extended nodes found
    refine ⟨⟨n, found', lies⟩, ?_⟩
    unfold Forest.parent?
    rw [found']
    exact alone

end

mutual
theorem plant_stands {f : Forest} {doc : Nat} {parent : Option Nat} {p : Planting} :
    ∀ (e : Element), Begun doc parent p → Settled f p (plant doc parent e p) →
      Stands f doc parent e p.nodes.length ∧
        Numbered f doc p (plant doc parent e p) [p.nodes.length] ∧
        Listed f p (plant doc parent e p) (lists doc parent e p)
  | .mk traits input none children, begun, settled => by
    let p' := p.place doc parent traits input false
    let s := plantAll doc (some p.nodes.length) children p'
    have laid : Laid doc parent traits input false p s s := ⟨plantAll_grows doc _ children p', .refl s⟩
    have below : Settled f p' s := settled_below settled begun laid
    have begun' : Begun doc (some p.nodes.length) p' :=
      ⟨fun m same => by cases same; simp [p', place_length], begun.lies⟩
    obtain ⟨stand, numbered, listed⟩ := plantAll_stands children begun' below
    have same := children_eq_spots settled begun laid
    have here := found_extended (laid.children.nodes.trans settled.nodes) (place_here p false)
    refine ⟨⟨none, here, same ▸ stand, rfl⟩, ⟨?_, numbered.embedded⟩, ?_⟩
    · have first := stretch_element settled begun laid fun _ => rfl
      have way := Forest.Walk.node (same ▸ numbered.way) .finished
      rw [List.append_nil] at way
      exact first ▸ way
    · have one := place_length p doc parent traits input false
      have longer := laid.children.nodes.length_le
      rw [one] at longer
      rw [lists_plain]
      refine ⟨?_, listed.tops⟩
      rw [← same, listed.children, one]
      exact (listing_cons longer).symm
  | .mk traits input (some es) children, begun, settled => by
    let p' := p.place doc parent traits input true
    let s := plantAll doc (some p.nodes.length) children p'
    let q := plantAll p.docs none es s
    have laid : Laid doc parent traits input true p s q :=
      ⟨plantAll_grows doc _ children p', plantAll_grows p.docs none es s⟩
    obtain ⟨below, inside⟩ := settled_inside settled begun laid
    have begun' : Begun doc (some p.nodes.length) p' :=
      ⟨fun m same => by cases same; simp [p', place_length], Nat.lt_succ_of_lt begun.lies⟩
    have begun'' : Begun p.docs none s := ⟨fun _ same => (nomatch same), laid.children.docs⟩
    obtain ⟨stand, numbered, listed⟩ := plantAll_stands children begun' below
    obtain ⟨stand', numbered', listed'⟩ := plantAll_stands es begun'' inside
    have same := children_eq_spots settled begun laid
    have only := fun i (lies : f.LiesIn p.docs i) => embedded_lies settled begun laid lies
    have tops := tops_eq_spots begun'' settled.nodes only
    have here := found_extended ((laid.children.nodes.trans laid.frame.nodes).trans settled.nodes) (place_here p true)
    refine ⟨⟨some p.docs, here, same ▸ stand, p.docs, rfl, tops ▸ stand'⟩, ⟨?_, fun d low high => ?_⟩, ?_⟩
    · have first := stretch_element settled begun laid nofun
      have way := Forest.Walk.node (same ▸ numbered.way) .finished
      rw [List.append_nil] at way
      exact first ▸ way
    · rcases Nat.eq_or_lt_of_le low with rfl | later
      · rw [tops, document_eq_stretch only]
        exact numbered'.way
      · by_cases early : d < s.docs
        · exact numbered.embedded d later early
        · exact numbered'.embedded d (by omega) high
    · have one := place_length p doc parent traits input true
      have longer := laid.children.nodes.length_le
      have longer' := laid.frame.nodes.length_le
      have docs : p.docs + 1 ≤ s.docs := laid.children.docs
      have docs' := laid.frame.docs
      have both := listed_append listed listed' ⟨longer, longer'⟩ ⟨docs, docs'⟩
      rw [one] at longer
      rw [lists_framed]
      refine ⟨?_, ?_⟩
      · rw [← same]
        refine (congrArg (List.cons _) (both.children.trans ?_)).trans (listing_cons (longer.trans longer')).symm
        rw [one]
      · rw [← tops]
        exact (congrArg (List.cons _) both.tops).trans (listing_cons (docs.trans docs')).symm
theorem plantAll_stands {f : Forest} {doc : Nat} {parent : Option Nat} {p : Planting} :
    ∀ (es : List Element), Begun doc parent p → Settled f p (plantAll doc parent es p) →
      StandAll f doc parent es (spots doc parent es p) ∧
        Numbered f doc p (plantAll doc parent es p) (spots doc parent es p) ∧
        Listed f p (plantAll doc parent es p) (listsAll doc parent es p)
  | [], begun, settled => by
    refine ⟨rfl, ⟨?_, fun d low high => absurd high (Nat.not_lt.mpr low)⟩, listing_self.symm, listing_self.symm⟩
    rw [plantAll, stretch_empty fun i low high => absurd high (Nat.not_lt.mpr low)]
    exact .finished
  | e :: es, begun, settled => by
    let q := plant doc parent e p
    have first := (plant_rooted doc parent e p).toGrows
    have second := plantAll_grows doc parent es q
    have begun' : Begun doc parent q := begun.extend first.nodes first.docs
    obtain ⟨settled, settled'⟩ := settled.split first second begun'
      (fun m same => .inl (begun.hangs m same)) (.inl begun.lies)
    obtain ⟨stands, numbered, listed⟩ := plant_stands e begun settled
    obtain ⟨stand, numbered', listed'⟩ := plantAll_stands es begun' settled'
    refine ⟨⟨_, _, rfl, stands, stand⟩, ⟨?_, fun d low high => ?_⟩,
      listed_append listed listed' ⟨first.nodes.length_le, second.nodes.length_le⟩ ⟨first.docs, second.docs⟩⟩
    · have joined := numbered.way.append numbered'.way
      rw [stretch_append first.nodes.length_le second.nodes.length_le] at joined
      exact joined
    · by_cases early : d < q.docs
      · exact numbered.embedded d low early
      · exact numbered'.embedded d (by omega) high
end

/-! ## Whole documents -/

section
variable (document : List Element)

/-- The planting from which the forest of a document comes. -/
def planted : Planting := plantAll 0 none document ⟨[], [], 1⟩

theorem build_eq : Forest.build document = (⟨(planted document).nodes⟩, (planted document).inputs) := rfl

theorem planted_counted : (planted document).Counted :=
  plantAll_keeps place_counted document ⟨Nat.le_refl 1, rfl⟩

theorem planted_begun : Begun 0 none ⟨[], [], 1⟩ := ⟨fun _ same => (nomatch same), Nat.one_pos⟩

theorem planted_settled : Settled (Forest.build document).1 ⟨[], [], 1⟩ (planted document) where
  nodes := List.prefix_refl _
  clear found outside := by
    have bound := found_lt found
    rcases outside with low | high
    · exact absurd low (Nat.not_lt_zero _)
    · exact absurd bound (Nat.not_lt.mpr high)

/-- Every input of a page belongs to a node. -/
theorem build_paired : (Forest.build document).2.length = (Forest.build document).1.nodes.length :=
  plantAll_keeps place_paired document (p := ⟨[], [], 1⟩) rfl

end

section
variable {document : List Element} {f : Forest} (built : f = (Forest.build document).1)
include built

theorem build_fresh {i : Nat} {n : Node} (found : f.node? i = some n) :
    Fresh 0 none ⟨[], [], 1⟩ (planted document) i n := by
  subst built
  exact (plantAll_grows 0 none document _).fresh (Nat.zero_le i) found

theorem build_tops : f.tops 0 = spots 0 none document ⟨[], [], 1⟩ := by
  subst built
  refine tops_eq_spots planted_begun (List.prefix_refl _) fun i lies => ?_
  obtain ⟨n, found, _⟩ := lies
  exact ⟨Nat.zero_le i, found_lt found⟩

theorem build_document : f.document 0 = stretch f 0 0 (planted document).nodes.length := by
  subst built
  refine document_eq_stretch fun i lies => ?_
  obtain ⟨n, found, _⟩ := lies
  exact ⟨Nat.zero_le i, found_lt found⟩

/-- A node lies in the page's own document or in one that is embedded. -/
theorem build_lies {d i : Nat} (lies : f.LiesIn d i) : d < (planted document).docs := by
  have more : 1 ≤ (planted document).docs := (planted_counted document).1
  obtain ⟨n, found, rfl⟩ := lies
  have := (build_fresh built found).lies_since
  omega

/-- The elements of a document stand at the top of its forest. -/
theorem build_stands : StandAll f 0 none document (f.tops 0) := by
  rw [build_tops built]
  subst built
  exact (plantAll_stands document planted_begun (planted_settled document)).1

/-- What is collected while a page is built: the list of the page's own document, and those of all it holds. -/
def collected (document : List Element) : Lists :=
  let inside := listsAll 0 none document ⟨[], [], 1⟩
  ⟨inside.children, (0, spots 0 none document ⟨[], [], 1⟩) :: inside.tops⟩

/-- The forest shows of its nodes and documents the lists that have been collected, one for each of them. -/
theorem build_listed : (collected document).children = f.places.map (fun i => (i, f.children i)) ∧
    (collected document).tops = (List.range (planted document).docs).map fun d => (d, f.tops d) := by
  have more : 1 ≤ (planted document).docs := (planted_counted document).1
  have tops := build_tops built
  subst built
  have listed := (plantAll_stands document planted_begun (planted_settled document)).2.2
  refine ⟨?_, ?_⟩
  · refine listed.children.trans ?_
    rw [Forest.places, List.range_eq_range']
    rfl
  · have start : List.range (planted document).docs = List.range' 0 ((planted document).docs - 0) := by
      rw [Nat.sub_zero, List.range_eq_range']
    rw [start]
    refine Eq.trans ?_ (listing_cons more).symm
    rw [tops]
    exact congrArg _ listed.tops

theorem build_ordered : f.Ordered where
  before {p i} hangs := by
    obtain ⟨n, found, hangs⟩ := Option.bind_eq_some_iff.mp hangs
    cases build_fresh built found with
    | sibling alone => exact nomatch alone.symm.trans hangs
    | inner inner => exact (inner.hangs_since hangs).2
  together {p i d} hangs lies := by
    obtain ⟨n, found, hangs⟩ := Option.bind_eq_some_iff.mp hangs
    obtain ⟨m, found', rfl⟩ := lies
    cases found.symm.trans found'
    cases build_fresh built found with
    | sibling alone => exact nomatch alone.symm.trans hangs
    | inner inner =>
      cases inner with
      | top alone => exact nomatch alone.symm.trans hangs
      | child hangs' inside there together =>
        cases hangs'.symm.trans hangs
        subst built
        exact ⟨_, there, together⟩
  walked d := by
    have numbered : Numbered f 0 ⟨[], [], 1⟩ (planted document) (spots 0 none document ⟨[], [], 1⟩) := by
      subst built
      exact (plantAll_stands document planted_begun (planted_settled document)).2.1
    rcases Nat.eq_zero_or_pos d with rfl | embedded
    · rw [build_tops built, build_document built]
      exact numbered.way
    · by_cases used : d < (planted document).docs
      · exact numbered.embedded d embedded used
      · have nowhere : f.document d = [] := List.eq_nil_iff_forall_not_mem.mpr fun i member =>
          used (build_lies built (Forest.mem_document.mp member))
        rw [Forest.tops, nowhere]
        exact .finished

/-- Documents are embedded in the order of their numbers. -/
theorem embeds_lt {i j d e : Nat} (before : i < j) (first : f.Embeds i d) (second : f.Embeds j e) : d < e := by
  have sorted : (f.nodes.filterMap (·.content)).Pairwise (· < ·) := by
    subst built
    rw [build_eq, (planted_counted document).2]
    exact List.pairwise_lt_range'
  obtain ⟨n, found, same⟩ := first
  obtain ⟨m, found', same'⟩ := second
  obtain ⟨bound, rfl⟩ := List.getElem?_eq_some_iff.mp found
  obtain ⟨bound', rfl⟩ := List.getElem?_eq_some_iff.mp found'
  exact List.pairwise_iff_getElem.mp (List.pairwise_filterMap.mp sorted) i j bound bound' before d same e same'

/-- Every document but the page's own is embedded in a node. -/
theorem embedded_of_lies {d i : Nat} (lies : f.LiesIn d i) : d = 0 ∨ ∃ j, f.Embeds j d := by
  have used := build_lies built lies
  rcases Nat.eq_zero_or_pos d with rfl | positive
  · exact .inl rfl
  · have counted : d ∈ f.nodes.filterMap (·.content) := by
      subst built
      rw [build_eq, (planted_counted document).2, List.mem_range'_1]
      omega
    obtain ⟨n, member, same⟩ := List.mem_filterMap.mp counted
    obtain ⟨j, found⟩ := List.mem_iff_getElem?.mp member
    exact .inr ⟨j, n, found, same⟩

theorem embeds_ne_zero {i d : Nat} (embeds : f.Embeds i d) : d ≠ 0 := by
  obtain ⟨n, found, same⟩ := embeds
  have counted : d ∈ f.nodes.filterMap (·.content) :=
    List.mem_filterMap.mpr ⟨n, List.mem_iff_getElem?.mpr ⟨i, found⟩, same⟩
  subst built
  rw [build_eq, (planted_counted document).2, List.mem_range'_1] at counted
  omega

end
end PageSpec.Page
