import PageSpec.Proofs.Browser.Targets
import PageSpec.Proofs.Execution.OwnText
/-!
Clicks on the typed text. After a prefix the placeholder stands for an element of exactly this text below
the prefix. Alone it stands for the typed text read as a target, which comes to the same exactly where the
text has no outer blanks and does not read as a selector.
-/
namespace PageSpec

/-! ## Clicks -/

namespace Exec
variable {σ : Type} [Browser σ]

/-- Finds the one of some elements that the hints pick; a failure names `note`. -/
def finding (aim : Aim) (all : Locator) (note : String) : Exec σ Locator := do
  let pick ← lift aim.hints.pick
  onSession (ensureFound (all.pick pick) .target note aim.hints)
  return all.pick pick

theorem one_eq (aim : Aim) (t : String) : (aim.one t : Exec σ Locator) = finding aim (aim.scope.allOf t) t := by
  funext r
  unfold Aim.one finding
  rw [onSession_apply]
  unfold locate locate.liftExcept Locator.oneOf
  cases picked : aim.hints.pick with
  | error e => rfl
  | ok pick =>
    have picks : (lift (.ok pick) : Exec σ Pick) r = (.ok pick, r) := rfl
    have made : (ExceptT.mk (pure (.ok pick >>= fun p => pure ((aim.scope.allOf t).pick p))) : Act σ Locator)
        r.session = (.ok ((aim.scope.allOf t).pick pick), r.session) := rfl
    rw [Act.bind_ok picks, Act.bind_ok made, Act.bind_apply, Act.bind_apply, onSession_apply]
    rcases ensureFound ((aim.scope.allOf t).pick pick) .target t aim.hints r.session with ⟨e | _, p⟩
    · rfl
    · rfl

/-- What is found tells which elements were looked at. -/
theorem finding_inj {aim : Aim} {all other : Locator} {note note' : String} {r : Run σ} {l : Locator}
    (found : (finding aim all note r).1 = .ok l) (same : finding aim other note' r = finding aim all note r) :
    other = all := by
  have foundOther : (finding aim other note' r).1 = .ok l := by rw [same, found]
  obtain ⟨q, found⟩ : ∃ q, finding aim all note r = (.ok l, q) := ⟨_, Prod.ext found rfl⟩
  obtain ⟨q', foundOther⟩ : ∃ q', finding aim other note' r = (.ok l, q') := ⟨_, Prod.ext foundOther rfl⟩
  obtain ⟨pick, y, picked, rest⟩ := Act.bind_eq_ok found
  obtain ⟨pick', y', picked', rest'⟩ := Act.bind_eq_ok foundOther
  cases picked.symm.trans picked'
  obtain ⟨_, _, _, returned⟩ := Act.bind_eq_ok rest
  obtain ⟨_, _, _, returned'⟩ := Act.bind_eq_ok rest'
  cases returned
  exact Locator.pick_inj (Except.ok.inj (congrArg Prod.fst returned'))

/-- What a click on the typed text is to find: the elements of exactly this text, below the prefix if there
is one. -/
def typedTarget (aim : Aim) (before t : String) : Exec σ Locator :=
  if before = "" then finding aim (aim.scope.text t) t
  else finding aim ((aim.scope.allOf before).text t) s!"{before} {t}"

section
variable {aim : Aim} {r : Run σ} {raw before t : String}

theorem clickTarget_typed (placeholder : typedPrefix? (Text.trim raw) = some before)
    (typed : r.memo.typed = some t) (written : t ≠ "") :
    clickTarget aim (Text.trim raw) r = (if before = "" then aim.one t else typedTarget aim before t) r := by
  have given : r.memo.typed.filter (· ≠ "") = some t := by
    rw [typed, Option.filter_some, if_pos (by simpa using written)]
  unfold clickTarget
  rw [placeholder]
  dsimp only
  rw [Act.bind_ok (Act.get_apply r), given]
  dsimp only
  by_cases bare : before = ""
  · rw [if_pos bare, if_pos bare]
  · unfold typedTarget
    rw [if_neg bare, if_neg bare, if_neg bare]
    rfl

theorem clickTarget_prefixed (placeholder : typedPrefix? (Text.trim raw) = some before)
    (typed : r.memo.typed = some t) (written : t ≠ "") (prefixed : before ≠ "") :
    clickTarget aim (Text.trim raw) r = typedTarget aim before t r := by
  rw [clickTarget_typed placeholder typed written, if_neg prefixed]

theorem clickTarget_bare (placeholder : typedPrefix? (Text.trim raw) = some "")
    (typed : r.memo.typed = some t) (written : t ≠ "") :
    clickTarget aim (Text.trim raw) r = finding aim (aim.scope.allOf t) t r := by
  rw [clickTarget_typed placeholder typed written, if_pos rfl, one_eq]

/-- A click that fails is tried once more by force. -/
def clicking (l : Locator) : Exec σ Unit :=
  onSession (tryCatch (Browser.click l false) fun _ => Browser.click l true)

theorem click_eq (aim : Aim) (raw : String) :
    (click aim raw : Exec σ Unit) = clickTarget aim (Text.trim raw) >>= clicking := rfl

/-- The placeholder stands for exactly the typed text if a prefix comes before it, or if the text reads as
itself. Where such an element is found, it does so in no other case. -/
theorem typedText_exact (placeholder : typedPrefix? (Text.trim raw) = some before)
    (typed : r.memo.typed = some t) (written : t ≠ "") :
    (before ≠ "" ∨ Target.Literal t →
      clickTarget aim (Text.trim raw) r = typedTarget aim before t r ∧
        click aim raw r = (typedTarget aim before t >>= clicking) r) ∧
    ∀ l, (typedTarget aim before t r).1 = .ok l →
      (clickTarget aim (Text.trim raw) r = typedTarget aim before t r ↔
        before ≠ "" ∨ Target.Literal t) := by
  have plainly : before ≠ "" ∨ Target.Literal t →
      clickTarget aim (Text.trim raw) r = typedTarget aim before t r := by
    intro plain
    by_cases bare : before = ""
    · subst bare
      have literal := plain.resolve_left fun other => other rfl
      rw [clickTarget_bare placeholder typed written, Locator.allOf_eq_text_iff.mpr literal]
      rfl
    · exact clickTarget_prefixed placeholder typed written bare
  refine ⟨fun plain => ⟨plainly plain, ?_⟩, fun l found => ⟨fun same => ?_, plainly⟩⟩
  · rw [click_eq, Act.bind_apply, Act.bind_apply, plainly plain]
  · by_cases bare : before = ""
    · subst bare
      rw [clickTarget_bare placeholder typed written] at same
      exact .inr (Locator.allOf_eq_text_iff.mp (finding_inj found same))
    · exact .inl bare

end

/-- A paragraph that shows the name of a tag, after an element of this tag, once a text was typed. -/
def tagNamed (typed : String) : Run Page :=
  let box : Page.Element := .mk { Page.Traits.ofTag "div" with text := "other" } ⟨"", false, 0⟩ none []
  let name : Page.Element := .mk { Page.Traits.ofTag "p" with text := "div" } ⟨"", false, 0⟩ none []
  { Run.fresh (.ofDocument [box, name]) default .empty with memo := ⟨some typed, none⟩ }

/-- The whole page, without hints. -/
def wholePage : Aim := ⟨.page, ⟨default, none⟩⟩

/-- The typed name of a tag means elements of this tag when it is clicked. -/
theorem tagNamed_misread : ¬ ∀ (aim : Aim) (raw before t : String) (r : Run Page),
    typedPrefix? (Text.trim raw) = some before → r.memo.typed = some t → t ≠ "" →
      clickTarget aim (Text.trim raw) r = typedTarget aim before t r := by
  intro always
  have placeholder : typedPrefix? (Text.trim "\x7btype\x7d") = some "" := by decide
  have same := always wholePage "\x7btype\x7d" "" "div" (tagNamed "div") placeholder rfl (by decide)
  rw [clickTarget_bare placeholder rfl (by decide)] at same
  have found : (finding wholePage (wholePage.scope.text "div") "div" (tagNamed "div")).1.toOption =
      some ((wholePage.scope.text "div").pick .first) := by decide +kernel
  have read := Locator.allOf_eq_text_iff.mp (finding_inj (eq_ok_of_toOption found) same)
  have selects : isSelectorText "div" = true := by decide
  cases selects.symm.trans read.2

/-- A typed text that is no name of a tag is found where it stands. -/
theorem other_typed :
    typedPrefix? (Text.trim " \x7btype\x7d") = some "" ∧ (tagNamed "other").memo.typed = some "other" ∧
      Target.Literal "other" ∧
        clickTarget wholePage (Text.trim " \x7btype\x7d") (tagNamed "other") =
          typedTarget wholePage "" "other" (tagNamed "other") ∧
        (clickTarget wholePage (Text.trim " \x7btype\x7d") (tagNamed "other")).1 =
          .ok ((Locator.page.text "other").pick .first) := by
  have placeholder : typedPrefix? (Text.trim " \x7btype\x7d") = some "" := by decide
  have typed : (tagNamed "other").memo.typed = some "other" := rfl
  have literal : Target.Literal "other" := ⟨by decide, by decide⟩
  have same : clickTarget wholePage (Text.trim " \x7btype\x7d") (tagNamed "other") =
      typedTarget wholePage "" "other" (tagNamed "other") :=
    ((typedText_exact placeholder typed (by decide)).1 (.inr literal)).1
  refine ⟨placeholder, typed, literal, same, ?_⟩
  rw [same]
  exact eq_ok_of_toOption (by decide +kernel)

end Exec
end PageSpec
