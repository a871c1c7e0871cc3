import Mathlib
import PageSpec.Proofs.Page.Retold
import PageSpec.Proofs.Page.Unmoved
import PageSpec.Proofs.Text.Words
/-!
The text of a page and what of it can be seen. The text of a document is made up of the texts of all its
elements, hidden or not. So it tells nothing about elements that cannot be seen exactly if there are none in
the document. For the one direction the texts of what can be seen are all there is; for the other the hidden
texts are blotted out, once by nothing and once by a letter, and the letters are counted.
-/
namespace PageSpec.Page

/-! ## Documents without hidden elements -/

section
variable {f f' : Forest}

theorem text_eq_of_seen (ordered : f.Ordered) (told : Retold f f') {d i : Nat} (lies : f.LiesIn d i)
    (open_ : ∀ j, f.LiesIn d j → f.Seen j) : f'.text i = f.text i := by
  unfold Forest.text
  rw [told.descendants_eq]
  refine congrArg String.join (List.map_congr_left fun j member => told.ownText_eq (open_ j ?_))
  rcases List.mem_cons.mp member with rfl | below
  · exact lies
  · exact (ordered.below_lies (ordered.mem_descendants.mp below) d).mp lies

/-- A document all of which can be seen keeps its text. -/
theorem documentText_eq_of_seen (ordered : f.Ordered) (told : Retold f f') {d : Nat}
    (open_ : ∀ j, f.LiesIn d j → f.Seen j) : f'.documentText d = f.documentText d := by
  unfold Forest.documentText
  rw [told.tops_eq]
  have texts : (f.tops d).map f'.text = (f.tops d).map f.text :=
    List.map_congr_left fun i top => text_eq_of_seen ordered told (Forest.mem_tops.mp top).1 open_
  rw [texts]

end

/-! ## Counting letters -/

/-- The number of letters of a node's own text. -/
def letters (f : Forest) (i : Nat) : Nat := (Text.ink (f.ownText i)).length

theorem ink_text (f : Forest) (i : Nat) :
    (Text.ink (f.text i)).length = ((i :: f.descendants i).map (letters f)).sum := by
  unfold Forest.text letters
  rw [Text.ink_join, List.length_flatMap, List.map_map]
  rfl

theorem ink_documentText (f : Forest) (d : Nat) : (Text.ink (f.documentText d)).length =
    ((f.tops d).map fun i => ((i :: f.descendants i).map (letters f)).sum).sum := by
  unfold Forest.documentText
  rw [Text.ink_collapse, Text.ink_intercalate, List.length_flatMap, List.map_map]
  simp only [Function.comp_def, ink_text]

section
variable {f f' : Forest} {document : List Element} {d a : Nat}

/-- Every node of a document is one of its top elements or lies below one. -/
theorem exists_top (ordered : f.Ordered) (lies : f.LiesIn d a) :
    ∃ i ∈ f.tops d, a ∈ i :: f.descendants i := by
  obtain ⟨i, top, within⟩ := ((ordered.walked d).mem_iff a).mp (Forest.mem_document.mpr lies)
  refine ⟨i, top, ?_⟩
  rw [List.mem_cons, ordered.mem_descendants]
  exact Forest.within_iff.mp within

/-- A document has more letters than another of the same shape if no node has fewer and one has more. -/
theorem documentText_ne (ordered : f.Ordered) (tops : f'.tops d = f.tops d)
    (descendants : ∀ i, f'.descendants i = f.descendants i) (least : ∀ i, letters f i ≤ letters f' i)
    (lies : f.LiesIn d a) (more : letters f a < letters f' a) : f.documentText d ≠ f'.documentText d := by
  intro same
  have counted := congrArg (fun s => (Text.ink s).length) same
  obtain ⟨top, member, inside⟩ := exists_top ordered lies
  rw [ink_documentText, ink_documentText, tops] at counted
  simp only [descendants] at counted
  refine absurd counted (Nat.ne_of_lt (List.sum_lt_sum _ _ (fun i _ => ?_) ⟨top, member, ?_⟩))
  · exact List.sum_le_sum fun j _ => least j
  · exact List.sum_lt_sum _ _ (fun j _ => least j) ⟨a, inside, more⟩

end

/-- Blotting out the hidden texts of a document by nothing and by a letter makes different texts of it, if there
is a hidden element. -/
theorem blotted_differ {document : List Element} {a d : Nat} (lies : (Forest.build document).1.LiesIn d a)
    (hidden : (Forest.build document).1.hidden a = true) :
    (Forest.build (blotted "" document)).1.documentText d ≠
      (Forest.build (blotted "x" document)).1.documentText d := by
  have none_ := blotted_retold "" document
  have some_ := blotted_retold "x" document
  have empty : (Text.ink "").length = 0 := by decide
  have letter : (Text.ink "x").length = 1 := by decide
  refine documentText_ne (a := a) (build_ordered rfl) ((some_.tops_eq d).trans (none_.tops_eq d).symm)
    (fun i => (some_.descendants_eq i).trans (none_.descendants_eq i).symm) (fun i => ?_) ?_ ?_
  · unfold letters
    rw [ownText_blotted, ownText_blotted]
    split
    · omega
    · exact Nat.le_refl _
  · rw [← Forest.mem_document, none_.document_eq]
    exact Forest.mem_document.mpr lies
  · unfold letters
    rw [ownText_blotted, ownText_blotted, hidden]
    simp only [↓reduceIte]
    omega

/-! ## Page texts -/

/-- The text of a page that shows a document stays the same when texts change that cannot be seen, and so does
whether a part of it is found. -/
def Discreet (document : List Element) : Prop :=
  ∀ (document' : List Element) (p p' : Page), p.forest = (Forest.build document).1 →
    p'.forest = (Forest.build document').1 → Retold p.forest p'.forest →
      (Browser.pageText p').1 = (Browser.pageText p).1 ∧
        ∀ patience needle, (await patience (.pageText needle) p').1 = .ok () ↔
          (await patience (.pageText needle) p).1 = .ok ()

/-- The text of a page depends on nothing but what can be seen exactly if all elements of its own document can
be seen. -/
theorem discreet_iff (document : List Element) : Discreet document ↔
    ∀ i, (Forest.build document).1.LiesIn 0 i → (Forest.build document).1.Seen i := by
  have ordered : (Forest.build document).1.Ordered := build_ordered rfl
  constructor
  · intro discreet i lies a within
    by_contra shown
    have hidden : (Forest.build document).1.hidden a = true := Bool.eq_true_of_not_eq_false shown
    have above : (Forest.build document).1.LiesIn 0 a := by
      rcases Forest.within_iff.mp within with rfl | below
      · exact lies
      · exact (ordered.below_lies below 0).mpr lies
    -- both ways to blot out what is hidden have to give the text of the document itself
    have same (text : String) : (Forest.build (blotted text document)).1.documentText 0 =
        (Forest.build document).1.documentText 0 := by
      have kept := (discreet (blotted text document) (ofDocument document) (ofDocument (blotted text document))
        rfl rfl (blotted_retold text document)).1
      rw [pageText_apply, pageText_apply] at kept
      exact Except.ok.inj kept
    exact blotted_differ above hidden ((same "").trans (same "x").symm)
  · intro open_ document' p p' shown _ told
    rw [shown] at told
    have same : p'.forest.documentText 0 = p.forest.documentText 0 := by
      rw [shown]
      exact documentText_eq_of_seen ordered told open_
    refine ⟨?_, fun patience needle => ?_⟩
    · rw [pageText_apply, pageText_apply, same]
    · rw [await_ok_iff, await_ok_iff, pageText_ok_iff, pageText_ok_iff, same]

/-- A hidden paragraph with a secret. -/
def secretNote (secret : String) : List Element :=
  [.mk { Traits.ofTag "p" with text := secret, hidden := true } ⟨"", false, 0⟩ none []]

/-- The text of a page gives a secret away. -/
theorem secretNote_told : ¬ ∀ document, Discreet document := by
  intro always
  have told : Retold (ofDocument (secretNote "code")).forest (ofDocument (secretNote "")).forest := by
    rintro (_ | i)
    · exact .inr ⟨fun seen => (nomatch seen 0 .refl), _, "", rfl, rfl⟩
    · exact .inl rfl
  have same := (always (secretNote "code") (secretNote "") _ _ rfl rfl told).1
  have read : (Browser.pageText (ofDocument (secretNote "code")) : Except Failure String × Page).1.toOption =
      some "code" := by decide +kernel
  have blank : (Browser.pageText (ofDocument (secretNote "")) : Except Failure String × Page).1.toOption =
      some "" := by decide +kernel
  rw [same, read] at blank
  exact absurd blank (by decide)

end PageSpec.Page
