import PageSpec.Execution.Action
import PageSpec.Proofs.Browser.Targets
/-!
Clicks that stand in for targets. An operation without a target of its own takes that of its action, and if
there is none the click of the action, provided that it is a selector. What is asked of the click is whether
its letters look like a selector. They do so too where they are read as a tag with a part of a text, and
nowhere else is the answer another one than the reading gives.
-/
namespace PageSpec

namespace Target
variable {t : String}

/-- A text that is read as a tag with a part of a text. -/
def Tagged (t : String) : Prop := ∃ tag part, classify t = .tagText tag part

/-- Only a text that stands for itself does not look like a selector. -/
theorem isSelectorText_eq (t : String) : isSelectorText t = match classify t with
    | .selector _ | .tagText _ _ => true
    | .text _ => false := by
  unfold isSelectorText classify
  dsimp only
  cases marked : Text.after? selectorMark (Text.trimChars t.toList) with
  | some rest => exact readsAsSelector_of_mark marked
  | none =>
    cases split : splitTagText (Text.trimChars t.toList) with
    | some p => exact readsAsSelector_of_split split
    | none => cases readsAsSelector (Text.trimChars t.toList) <;> rfl

/-- What looks like a selector is read as one, or as a tag with a part of a text. -/
theorem isSelectorText_iff : isSelectorText t = true ↔ (classify t).isSelector = true ∨ Tagged t := by
  rw [isSelectorText_eq, Tagged]
  cases classify t <;> simp [isSelector]

theorem Tagged.not_isSelector (tagged : Tagged t) : (classify t).isSelector = false := by
  obtain ⟨tag, part, read⟩ := tagged
  rw [read]
  rfl

end Target

section
variable {t : String}

theorem filter_isSelectorText : (some t).filter isSelectorText = some t ↔ isSelectorText t = true := by
  rw [Option.filter_eq_some_iff]
  exact ⟨fun both => both.2, fun selects => ⟨rfl, selects⟩⟩

/-- A click stands in for the target of an action that names none if it looks like a selector. -/
theorem Action.explicitTarget_iff {a : Action} (unnamed : a.loc = none) (clicked : a.click = some t) :
    a.explicitTarget = some t ↔ isSelectorText t = true := by
  unfold explicitTarget clickSelector
  rw [unnamed, clicked, Option.none_or]
  exact filter_isSelectorText

theorem ScenarioContext.target_iff {k : ScenarioContext} (unnamed : k.loc = none) (clicked : k.click = some t) :
    k.target = some t ↔ isSelectorText t = true := by
  unfold target
  rw [unnamed, clicked, Option.none_or]
  exact filter_isSelectorText

theorem Action.explicitTarget_unclicked {a : Action} (clicked : a.click = some t)
    (plain : isSelectorText t = false) : ({ a with click := none } : Action).explicitTarget = a.explicitTarget := by
  unfold explicitTarget clickSelector
  rw [clicked, Option.filter_some, plain]
  rfl

theorem ScenarioContext.target_unclicked {k : ScenarioContext} (clicked : k.click = some t)
    (plain : isSelectorText t = false) : ({ k with click := none } : ScenarioContext).target = k.target := by
  unfold target
  rw [clicked, Option.filter_some, plain]
  rfl

end

namespace Exec

/-- An operation that falls back on the target of its action, with what is written on the operation itself. -/
inductive Fallback where
  | type
  | press (chord : String)
  | setChecked (spec : CheckTarget) (checked : Bool)
  | select (spec : SelectSpec)
  | upload (spec : UploadSpec)
  | expectText (s : TextCondition)
  | expectVisible (s : VisibleCondition)
  | screenshot (spec : ScreenshotSpec)

variable {σ : Type} [Browser σ]

namespace Fallback

def perform (c : Setting) (aim : Aim) (a : Action) : Fallback → Exec σ Unit
  | .type => Exec.type c aim a
  | .press chord => Exec.press aim a chord
  | .setChecked spec checked => Exec.setChecked c aim a spec checked
  | .select spec => Exec.select aim a spec
  | .upload spec => Exec.upload c aim a spec
  | .expectText s => Exec.expectText c aim a s
  | .expectVisible s => Exec.expectVisible c aim a s
  | .screenshot spec => Exec.screenshot aim a spec

variable {c : Setting} {aim : Aim} {a : Action}

/-- Where the target of an action is written makes no difference to these operations. -/
theorem perform_congr (o : Fallback) {loc click : Option String}
    (same : ({ a with loc := loc, click := click } : Action).explicitTarget = a.explicitTarget) :
    (o.perform c aim { a with loc := loc, click := click } : Exec σ Unit) = o.perform c aim a := by
  cases o with
  | type => simp only [perform, Exec.type, same]
  | press chord => simp only [perform, Exec.press, same]
  | setChecked spec checked => simp only [perform, Exec.setChecked, same]
  | select spec => simp only [perform, Exec.select, same]
  | upload spec => simp only [perform, Exec.upload, same]
  | expectText s => simp only [perform, Exec.expectText, same]
  | expectVisible s => simp only [perform, Exec.expectVisible, same]
  | screenshot spec => simp only [perform, Exec.screenshot, same]

/-- Of the context of a case they go by its target alone. -/
theorem perform_context (o : Fallback) {context : Option ScenarioContext}
    (same : context.bind (·.target) = c.context.bind (·.target)) :
    (o.perform { c with context := context } aim a : Exec σ Unit) = o.perform c aim a := by
  cases o with
  | setChecked spec checked => simp only [perform, Exec.setChecked, same]
  | type | press | select | upload | expectText | expectVisible | screenshot => rfl

end Fallback

open Target (Tagged)

/-- What a click is to stand in for: the target of an action or of a case exactly if it is a selector. If it is
none, all operations do as if there were no click. -/
structure StandsInAsRead (t : String) : Prop where
  onAction : ∀ a : Action, a.loc = none → a.click = some t →
    (a.explicitTarget = some t ↔ (Target.classify t).isSelector = true)
  onCase : ∀ k : ScenarioContext, k.loc = none → k.click = some t →
    (k.target = some t ↔ (Target.classify t).isSelector = true)
  unused : (Target.classify t).isSelector = false → ∀ (σ : Type) [Browser σ] (o : Fallback) (c : Setting)
    (aim : Aim) (a : Action), a.click = some t →
      (o.perform c aim a : Exec σ Unit) = o.perform c aim { a with click := none }
  unusedOnCase : (Target.classify t).isSelector = false → ∀ (σ : Type) [Browser σ] (o : Fallback) (c : Setting)
    (aim : Aim) (a : Action) (k : ScenarioContext), c.context = some k → k.click = some t →
      (o.perform c aim a : Exec σ Unit) = o.perform { c with context := some { k with click := none } } aim a

/-- A click that stands in for the target wherever there is none: all operations do as if it were the target of
the action. -/
structure TakenOver (t : String) : Prop where
  onAction : ∀ a : Action, a.loc = none → a.click = some t → a.explicitTarget = some t
  onCase : ∀ k : ScenarioContext, k.loc = none → k.click = some t → k.target = some t
  used : ∀ (σ : Type) [Browser σ] (o : Fallback) (c : Setting) (aim : Aim) (a : Action), a.loc = none →
    a.click = some t → (o.perform c aim a : Exec σ Unit) = o.perform c aim { a with loc := some t, click := none }

variable {t : String}

/-- A click that is no tag with a part of a text looks like what it is read as. -/
theorem standsInAsRead_of_untagged (untagged : ¬ Tagged t) : StandsInAsRead t := by
  have looks : isSelectorText t = true ↔ (Target.classify t).isSelector = true :=
    Target.isSelectorText_iff.trans (or_iff_left untagged)
  have plain (other : (Target.classify t).isSelector = false) : isSelectorText t = false := by
    rw [Bool.eq_false_iff, ne_eq, looks, other]
    exact Bool.false_ne_true
  refine ⟨fun a unnamed clicked => ?_, fun k unnamed clicked => ?_, fun other σ _ o c aim a clicked => ?_,
    fun other σ _ o c aim a k given clicked => ?_⟩
  · rw [Action.explicitTarget_iff unnamed clicked, looks]
  · rw [ScenarioContext.target_iff unnamed clicked, looks]
  · exact (o.perform_congr (Action.explicitTarget_unclicked clicked (plain other))).symm
  · refine (o.perform_context ?_).symm
    rw [given]
    exact ScenarioContext.target_unclicked clicked (plain other)

theorem takenOver_of_tagged (tagged : Tagged t) : TakenOver t := by
  have looks : isSelectorText t = true := Target.isSelectorText_iff.mpr (.inr tagged)
  refine ⟨fun a unnamed clicked => (Action.explicitTarget_iff unnamed clicked).mpr looks,
    fun k unnamed clicked => (ScenarioContext.target_iff unnamed clicked).mpr looks,
    fun σ _ o c aim a unnamed clicked => (o.perform_congr ?_).symm⟩
  rw [(Action.explicitTarget_iff unnamed clicked).mpr looks]
  rfl

/-- A click stands in for a target as it is read unless it is a tag with a part of a text. Such a click is no
selector, and yet it is taken for the target everywhere. -/
theorem standsInAsRead_iff (t : String) :
    (StandsInAsRead t ↔ ¬ Tagged t) ∧ (Tagged t → (Target.classify t).isSelector = false ∧ TakenOver t) := by
  refine ⟨⟨fun stands tagged => ?_, standsInAsRead_of_untagged⟩,
    fun tagged => ⟨tagged.not_isSelector, takenOver_of_tagged tagged⟩⟩
  have taken := (takenOver_of_tagged tagged).onAction { Action.empty with click := some t } rfl rfl
  have selector := (stands.onAction _ rfl rfl).mp taken
  exact Bool.false_ne_true (tagged.not_isSelector.symm.trans selector)

/-- A click on the button that says so is no selector, and it is taken over as the target all the same. -/
theorem saveButton_taken : ¬ ∀ t, StandsInAsRead t := by
  intro always
  have stands := (always "button > Save").onAction { Action.empty with click := some "button > Save" } rfl rfl
  have taken : ({ Action.empty with click := some "button > Save" } : Action).explicitTarget =
      some "button > Save" := by decide
  have tagText : Target.classify "button > Save" = .tagText "button" "Save" := by decide
  have selector := stands.mp taken
  rw [tagText] at selector
  cases selector

end Exec
end PageSpec
