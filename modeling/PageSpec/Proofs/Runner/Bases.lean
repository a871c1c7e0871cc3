import PageSpec.Proofs.Runner.Checked
/-!
The base that URLs are joined onto. It can be given twice, and one of the two overrides the other. Blank texts give
no base. But an override that is blank is not passed over as one that is not there: it still hides the usual base, so
that cases are stranded for which there is one.
-/
namespace PageSpec

/-- A base is given, and it is more than blanks. -/
def GivesBase (written : Option String) : Prop := ∃ s, written = some s ∧ Text.trim s ≠ ""

/-! ## The base in effect -/

section
variable {override usual : Option String} {s : String}

theorem effectiveBase_override (there : override = some s) (solid : Text.trim s ≠ "") :
    effectiveBase override usual = some (Text.trim s) := by
  rw [there, effectiveBase, Option.some_or, Option.map_some]
  exact Option.filter_some_pos (by simpa using solid)

theorem effectiveBase_usual (absent : override = none) (there : usual = some s) (solid : Text.trim s ≠ "") :
    effectiveBase override usual = some (Text.trim s) := by
  rw [absent, there, effectiveBase, Option.none_or, Option.map_some]
  exact Option.filter_some_pos (by simpa using solid)

/-- A blank override leaves no base at all. -/
theorem effectiveBase_blank (there : override = some s) (blank : Text.trim s = "") :
    effectiveBase override usual = none := by
  rw [there, effectiveBase, Option.some_or, Option.map_some]
  exact Option.filter_some_neg (by simpa using blank)

end

/-! ## Cases without a base -/

/-- Whether a failure says that a URL needs a base and there is none. -/
def Failure.asksForBase : Failure → Bool
  | .noBaseUrl _ | .invalidUrl _ _ .noBase => true
  | _ => false

namespace SuiteCase

/-- A case starts at a URL that does not say itself which server it leads to. -/
def Relative (c : SuiteCase) (b : Bag) : Prop :=
  ∃ written, c.writtenUrl = some written ∧ isAbsoluteUrl (Text.trim (interpolate b written)) = false

/-- The failures over a missing base arise exactly where there is none for a URL that needs one. -/
theorem address_asksForBase_iff (c : SuiteCase) (join : Joiner) (b : Bag) (base : Option String) :
    (∃ e, c.address join b base = .error e ∧ e.asksForBase = true) ↔ base = none ∧ c.Relative b := by
  have empty : isAbsoluteUrl "" = false := by decide
  unfold address Relative
  cases c.writtenUrl with
  | none => simp
  | some written =>
    simp only [Option.some.injEq, exists_eq_left']
    generalize Text.trim (interpolate b written) = url
    by_cases nothing : url = ""
    · subst nothing
      cases base with
      | none => simp [Failure.asksForBase, empty]
      | some u => simp
    · rw [if_neg nothing]
      cases isAbsoluteUrl url with
      | true => simp
      | false => cases base with
        | none => simp [Failure.asksForBase]
        | some u => cases joined : join u url <;> simp [joined, Failure.asksForBase]

/-- With a base, no failure asks for one. -/
theorem address_based {c : SuiteCase} {join : Joiner} {b : Bag} {base : Option String} {u : String} {e : Failure}
    (based : base = some u) (failed : c.address join b base = .error e) : e.asksForBase = false := by
  refine Bool.eq_false_iff.mpr fun asks => ?_
  obtain ⟨absent, -⟩ := (c.address_asksForBase_iff join b base).mp ⟨e, failed, asks⟩
  cases based.symm.trans absent

end SuiteCase

namespace RunConfig

/-- Wherever a base is given, there is one: the override without the blanks around it, or else the usual base. So no
case is stranded. -/
structure UsesGivenBase (c : RunConfig) : Prop where
  override : ∀ s, c.baseUrlOverride = some s → Text.trim s ≠ "" → c.base? = some (Text.trim s)
  usual : ¬ GivesBase c.baseUrlOverride → ∀ s, c.baseUrl = some s → Text.trim s ≠ "" → c.base? = some (Text.trim s)
  found : GivesBase c.baseUrlOverride ∨ GivesBase c.baseUrl → ∀ (entry : SuiteCase) (b : Bag) e,
    entry.address c.join b c.base? = .error e → e.asksForBase = false

/-- A usual base is given, and so is an override, which is blank. -/
def Overshadowed (c : RunConfig) : Prop :=
  (∃ s, c.baseUrlOverride = some s ∧ Text.trim s = "") ∧ GivesBase c.baseUrl

theorem not_givesBase_iff {written : Option String} :
    ¬ GivesBase written ↔ written = none ∨ ∃ s, written = some s ∧ Text.trim s = "" := by
  cases written <;> simp [GivesBase]

/-- Of a base that is given, only a blank override stands in the way. -/
theorem usesGivenBase_iff (c : RunConfig) : c.UsesGivenBase ↔ ¬ c.Overshadowed := by
  constructor
  · rintro uses ⟨⟨o, there, blank⟩, s, given, solid⟩
    have hidden : c.base? = none := effectiveBase_blank there blank
    have idle : ¬ GivesBase c.baseUrlOverride := not_givesBase_iff.mpr (.inr ⟨o, there, blank⟩)
    cases hidden.symm.trans (uses.usual idle s given solid)
  · intro lit
    have override : ∀ s, c.baseUrlOverride = some s → Text.trim s ≠ "" → c.base? = some (Text.trim s) :=
      fun s there solid => effectiveBase_override there solid
    have usual : ¬ GivesBase c.baseUrlOverride → ∀ s, c.baseUrl = some s → Text.trim s ≠ "" →
        c.base? = some (Text.trim s) := by
      intro idle s given solid
      rcases not_givesBase_iff.mp idle with absent | blank
      · exact effectiveBase_usual absent given solid
      · exact absurd ⟨blank, s, given, solid⟩ lit
    refine ⟨override, usual, fun given entry b e failed => ?_⟩
    by_cases first : GivesBase c.baseUrlOverride
    · obtain ⟨s, there, solid⟩ := first
      exact SuiteCase.address_based (override s there solid) failed
    · obtain ⟨s, there, solid⟩ := given.resolve_left first
      exact SuiteCase.address_based (usual first s there solid) failed

/-- Runs with a base that a blank override hides. -/
def shadowed : RunConfig :=
  { Runner.plainConfig with baseUrl := some "http://app.test", baseUrlOverride := some " " }

/-- A case that starts at the base. -/
def homeCase : SuiteCase := ⟨"home", "home", ⟨none, some "", [], none⟩, "", none, "a.json"⟩

/-- Under a blank override no base is left, though one is given, and a case that starts at it cannot be reached. -/
theorem shadowed_stranded : GivesBase shadowed.baseUrl ∧ shadowed.base? = none ∧
    homeCase.address shadowed.join .empty shadowed.base? = .error (.noBaseUrl "home") ∧ ¬ shadowed.UsesGivenBase := by
  have given : GivesBase shadowed.baseUrl := ⟨"http://app.test", rfl, by decide⟩
  have hidden : shadowed.base? = none := effectiveBase_blank (s := " ") rfl (by decide)
  have stranded : homeCase.address shadowed.join .empty shadowed.base? = .error (.noBaseUrl "home") := by
    have plain : interpolate .empty "" = "" := interpolate_plain (by decide)
    have bare : Text.trim "" = "" := by decide
    rw [hidden]
    simp [SuiteCase.address, SuiteCase.writtenUrl, homeCase, plain, bare]
  refine ⟨given, hidden, stranded, fun uses => ?_⟩
  cases uses.found (.inr given) homeCase .empty _ stranded

end RunConfig
end PageSpec
