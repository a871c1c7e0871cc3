import PageSpec.Proofs.Page.Locating
/-!
Texts that mean themselves. A written target is trimmed, loses the mark of selectors and is split at a tag
before it is looked for; the texts are described here to which none of this happens, and with them the
targets that stand for the elements their letters name.
-/
namespace PageSpec

theorem Text.trimChars_length_le (cs : List Char) : (trimChars cs).length ≤ cs.length := by
  unfold trimChars trimEnd trimStart
  have front := (List.dropWhile_sublist (l := cs) isBlank).length_le
  have back := (List.dropWhile_sublist (l := (cs.dropWhile isBlank).reverse) isBlank).length_le
  rw [List.length_reverse] at back ⊢
  omega

theorem Text.splitOnce_mem {sep : Char} : ∀ {cs : List Char} {p : List Char × List Char},
    splitOnce sep cs = some p → sep ∈ cs
  | c :: cs, p, found => by
    by_cases same : c = sep
    · simp [same]
    · rw [splitOnce, if_neg same] at found
      obtain ⟨q, later, _⟩ := Option.map_eq_some_iff.mp found
      exact List.mem_cons_of_mem c (splitOnce_mem later)

namespace Target
variable {cs : List Char}

theorem readsAsSelector_of_mark {rest : List Char} (marked : Text.after? selectorMark cs = some rest) :
    readsAsSelector cs = true := by
  have nonempty : cs ≠ [] := by
    rintro rfl
    cases marked
  simp [readsAsSelector, nonempty, marked]

/-- A text with a tag before a part of it holds a sign that joins selectors. -/
theorem readsAsSelector_of_split {p : String × String} (split : splitTagText cs = some p) :
    readsAsSelector cs = true := by
  have joined : '>' ∈ cs := by
    unfold splitTagText at split
    cases cut : Text.splitOnce '>' cs with
    | none => rw [cut] at split; cases split
    | some p => exact Text.splitOnce_mem cut
  have nonempty : cs ≠ [] := by
    rintro rfl
    cases joined
  simp [readsAsSelector, nonempty, joiners, joined]

/-- A text that is looked for as it stands: nothing is trimmed or stripped off it, and it is not a tag with
a part of a text. -/
structure Whole (t : String) : Prop where
  trimmed : Text.trim t = t
  unmarked : Text.after? selectorMark t.toList = none
  unsplit : splitTagText t.toList = none

theorem trimChars_of_trim {t : String} (trimmed : Text.trim t = t) : Text.trimChars t.toList = t.toList :=
  String.ofList_injective (trimmed.trans (String.ofList_toList).symm)

theorem classify_whole {t : String} (whole : Whole t) :
    classify t = if isSelectorText t then .selector t else .text t := by
  unfold classify isSelectorText
  dsimp only
  rw [trimChars_of_trim whole.trimmed, whole.unmarked, whole.unsplit, String.ofList_toList]

/-- A text without outer blanks that does not read as a selector. -/
def Literal (t : String) : Prop := Text.trim t = t ∧ isSelectorText t = false

/-- A text that stands for elements of exactly this text is looked for as it stands. -/
theorem literal_iff {t : String} : Literal t ↔ Whole t ∧ isSelectorText t = false := by
  constructor
  · rintro ⟨trimmed, plain⟩
    have bare := trimChars_of_trim trimmed
    have unread : readsAsSelector t.toList = false := by rw [← bare]; exact plain
    refine ⟨⟨trimmed, ?_, ?_⟩, plain⟩
    · by_contra marked
      obtain ⟨rest, marked⟩ := Option.ne_none_iff_exists'.mp marked
      cases unread.symm.trans (readsAsSelector_of_mark marked)
    · by_contra split
      obtain ⟨p, split⟩ := Option.ne_none_iff_exists'.mp split
      cases unread.symm.trans (readsAsSelector_of_split split)
  · rintro ⟨whole, plain⟩
    exact ⟨whole.trimmed, plain⟩

/-- These are the texts that stand for elements of exactly this text. -/
theorem classify_eq_text_iff {t : String} : classify t = .text t ↔ Literal t := by
  constructor
  · intro same
    unfold classify at same
    dsimp only at same
    split at same
    · cases same
    · split at same
      · cases same
      · split at same
        · cases same
        · rename_i plain
          exact ⟨Target.text.inj same, Bool.eq_false_iff.mpr plain⟩
  · intro literal
    obtain ⟨whole, plain⟩ := literal_iff.mp literal
    rw [classify_whole whole, plain]
    rfl

/-- Taking off the mark of a selector leaves less than there was. -/
theorem shorter_of_mark {t : String} {rest : List Char}
    (marked : Text.after? selectorMark (Text.trimChars t.toList) = some rest) :
    .ofList (Text.trimChars rest) ≠ t := by
  intro same
  have counted : rest.length + 4 = (Text.trimChars t.toList).length := Text.after?_length marked
  have outer := Text.trimChars_length_le t.toList
  have inner := Text.trimChars_length_le rest
  rw [← same, String.toList_ofList] at outer
  rw [← same, String.toList_ofList] at counted
  omega

/-- These are the selectors that stand for themselves. -/
theorem classify_eq_selector_iff {t : String} :
    classify t = .selector t ↔ Whole t ∧ isSelectorText t = true := by
  constructor
  · intro same
    unfold classify at same
    dsimp only at same
    split at same
    · rename_i rest marked
      exact absurd (Target.selector.inj same) (shorter_of_mark marked)
    · rename_i unmarked
      split at same
      · cases same
      · rename_i unsplit
        split at same
        · rename_i selects
          have trimmed : Text.trim t = t := Target.selector.inj same
          have bare := trimChars_of_trim trimmed
          exact ⟨⟨trimmed, bare ▸ unmarked, bare ▸ unsplit⟩, selects⟩
        · cases same
  · rintro ⟨whole, selects⟩
    rw [classify_whole whole, if_pos selects]

end Target

namespace Locator

theorem pick_inj {l l' : Locator} {pick : Pick} (same : l.pick pick = l'.pick pick) : l = l' := by
  cases pick <;> exact (add_inj same).1

theorem target_inj {l : Locator} {t t' : Target} (same : l.target t = l.target t') : t = t' := by
  cases t <;> cases t' <;> cases (add_inj same).2 <;> rfl

theorem allOf_eq_text_iff {scope : Locator} {t : String} : scope.allOf t = scope.text t ↔ Target.Literal t := by
  rw [← Target.classify_eq_text_iff]
  exact ⟨fun same => target_inj same, fun read => congrArg scope.target read⟩

end Locator

end PageSpec
