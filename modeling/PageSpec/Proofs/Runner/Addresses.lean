import PageSpec.Proofs.Runner.Checked
/-!
Where cases start, to a check and to a run. The check works an address out from an empty bag, a run from
the bag of its turn. Without a brace in the URL the bag does not matter, so that the check reports an
entry over its address exactly where every run of it stops there, and over the same failure.
-/
namespace PageSpec

/-- Whether a failure is about where a case starts. -/
def Failure.isAddress : Failure → Bool
  | .noBaseUrl _ | .invalidUrl _ _ _ => true
  | _ => false

namespace SuiteCase
variable {c : SuiteCase} {join : Joiner} {base : Option String} {e : Failure}

/-! ## Addresses -/

/-- The URL of a case holds no brace, if there is one. -/
def Settled (c : SuiteCase) : Prop := ∀ u, c.writtenUrl = some u → '{' ∉ u.toList

theorem not_templated (settled : c.Settled) :
    (c.writtenUrl.any fun u => u.toList.contains '{') = false := by
  cases written : c.writtenUrl with
  | none => rfl
  | some u =>
    have plain := settled u written
    simpa using plain

/-- A settled address is worked out without looking at the bag. -/
theorem address_settled (settled : c.Settled) (join : Joiner) (b b' : Bag)
    (base : Option String) : c.address join b base = c.address join b' base := by
  unfold address
  cases written : c.writtenUrl with
  | none => rfl
  | some u =>
    have plain := settled u written
    simp only [interpolate_plain plain]

theorem isAddress_of_address {b : Bag} (failed : c.address join b base = .error e) : e.isAddress = true := by
  unfold address at failed
  split at failed
  · cases failed
  · dsimp only at failed
    split at failed
    · split at failed
      · cases failed
      · cases failed; rfl
    · split at failed
      · cases failed
      · split at failed
        · cases failed; rfl
        · split at failed
          · cases failed
          · cases failed; rfl

/-! ## Reports -/

theorem addressProblem_iff (settled : c.Settled) (b : Bag) :
    c.addressProblem join base = some e ↔ c.address join b base = .error e := by
  unfold addressProblem
  rw [not_templated settled, address_settled settled join b .empty base]
  cases c.address join .empty base <;> simp

theorem isAddress_of_addressProblem (reported : c.addressProblem join base = some e) : e.isAddress = true := by
  unfold addressProblem at reported
  split at reported
  · cases reported
  · cases failed : c.address join .empty base with
    | ok address => rw [failed] at reported; cases reported
    | error e' =>
      rw [failed] at reported
      cases reported
      exact isAddress_of_address failed

theorem not_isAddress_of_actionProblem {number : Nat} {raw : Json}
    (reported : c.actionProblem number raw = some e) : e.isAddress = false := by
  unfold actionProblem at reported
  split at reported
  · cases reported
  · split at reported
    · cases reported
    · cases reported; rfl

/-- The report of a case says of its address what `addressProblem` finds, and nothing else. -/
theorem problems_isAddress (c : SuiteCase) (join : Joiner) (base : Option String) :
    (c.problems join base).filter (·.isAddress) = (c.addressProblem join base).toList := by
  have own : (c.addressProblem join base).toList.filter (·.isAddress) = (c.addressProblem join base).toList := by
    apply List.filter_eq_self.mpr
    intro e reported
    exact isAddress_of_addressProblem (by simpa using reported)
  unfold problems
  rw [List.filter_append, own, List.append_right_eq_self]
  apply List.filter_eq_nil_iff.mpr
  intro e reported
  obtain ⟨_, _, reported⟩ := List.mem_filterMap.mp reported
  simp [not_isAddress_of_actionProblem reported]

end SuiteCase

/-- The report of a suite says of addresses what is found entry by entry, in order. -/
theorem Suite.problems_isAddress (s : Suite) (join : Joiner) (base : Option String) :
    (s.problems join base).filter (·.isAddress) =
      (s.before ++ s.cases).filterMap (·.addressProblem join base) := by
  unfold problems
  induction s.before ++ s.cases with
  | nil => rfl
  | cons c cs ih =>
    rw [List.flatMap_cons, List.filter_append, ih, SuiteCase.problems_isAddress, List.filterMap_cons]
    cases c.addressProblem join base <;> rfl

/-! ## Runs -/

/-- What fails for one of a list from every state cannot be done for all of it. -/
theorem Act.forM_fails {s α : Type} {f : α → Act s Unit} {a : α} {e : Failure}
    (fails : ∀ x, (f a x).1 = .error e) :
    ∀ {as : List α}, a ∈ as → ∀ x, ∃ e', (as.forM f x).1 = .error e'
  | b :: bs, member, x => by
    rw [forM_cons, bind_apply]
    rcases first : f b x with ⟨e' | _, y⟩
    · exact ⟨e', rfl⟩
    · rcases List.mem_cons.mp member with rfl | later
      · have failed := fails x
        rw [first] at failed
        cases failed
      · exact forM_fails fails later y

namespace Runner
variable {σ : Type} {config : RunConfig} {functions : Option FunctionBag} {c : SuiteCase}

/-- Where an entry starts, by the bag of its turn. -/
def destination (config : RunConfig) (c : SuiteCase) : Exec σ (Option String) := do
  Exec.lift (c.address config.join (← get).bag config.base?)

theorem destination_apply (r : Run σ) : destination config c r = (c.address config.join r.bag config.base?, r) := rfl

variable [Browser σ]

/-- What is left of an entry once it is known where it starts. -/
def depart (config : RunConfig) (functions : Option FunctionBag) (c : SuiteCase)
    (address : Option String) : Exec σ Unit := do
  Exec.forSome address fun url => Exec.onSession (Browser.navigate url)
  modify fun r => { r with memo := .empty }
  let setting : Setting :=
    { settings := config.settings, options := config.options, functions := functions
      starter := config.starter, context := c.scenario.context, directory := c.directory }
  c.scenario.actions.forM (Exec.action setting .page)

theorem runEntry_eq (config : RunConfig) (functions : Option FunctionBag) (c : SuiteCase) :
    (runEntry config functions c : Exec σ Unit) = destination config c >>= depart config functions c := by
  unfold destination
  rw [bind_assoc]
  rfl

/-- Where a start cannot be found, nothing is done. -/
theorem runEntry_lost {r : Run σ} {e : Failure} (lost : c.address config.join r.bag config.base? = .error e) :
    runEntry config functions c r = (.error e, r) := by
  rw [runEntry_eq]
  exact Act.bind_error (by rw [destination_apply, lost]) _

theorem runEntry_found {r : Run σ} {address : Option String}
    (found : c.address config.join r.bag config.base? = .ok address) :
    runEntry config functions c r = depart config functions c address r := by
  rw [runEntry_eq]
  exact Act.bind_ok (by rw [destination_apply, found]) _

/-- What a check finds of a start is what every run finds there. -/
structure Agreed (σ : Type) [Browser σ] (config : RunConfig) (c : SuiteCase)
    (found : Except Failure (Option String)) : Prop where
  /-- No bag makes a difference. -/
  fixed : ∀ b, c.address config.join b config.base? = found
  problem : ∀ e, c.addressProblem config.join config.base? = some e ↔ found = .error e
  /-- The report of the entry has this failure, and no other one about a start. -/
  reported : ∀ e, (e ∈ c.problems config.join config.base? ∧ e.isAddress = true) ↔ found = .error e
  met : ∀ r : Run σ, destination config c r = (found, r)
  stopped : ∀ e, found = .error e → ∀ functions (r : Run σ), runEntry config functions c r = (.error e, r)
  reached : ∀ address, found = .ok address → ∀ functions (r : Run σ),
    runEntry config functions c r = depart config functions c address r
  /-- No case that the entry belongs to can pass. -/
  failing : ∀ e, found = .error e → ∀ functions before own, c ∈ before ++ [own] → ∀ r : Run σ,
    ∃ e', (runCase config functions before own r).1 = .error e'

theorem agreed_of_settled (settled : c.Settled) :
    Agreed σ config c (c.address config.join .empty config.base?) where
  fixed b := SuiteCase.address_settled settled _ b .empty _
  problem e := SuiteCase.addressProblem_iff settled .empty
  reported e := by
    rw [← SuiteCase.addressProblem_iff settled .empty, ← Option.mem_toList,
      ← SuiteCase.problems_isAddress, List.mem_filter]
  met r := by rw [destination_apply, SuiteCase.address_settled settled _ r.bag .empty]
  stopped e failed functions r := by
    apply runEntry_lost
    rw [SuiteCase.address_settled settled _ r.bag .empty, failed]
  reached address found functions r := by
    apply runEntry_found
    rw [SuiteCase.address_settled settled _ r.bag .empty, found]
  failing e failed functions before own member r := by
    have fails : ∀ x : Run σ, (runEntry config functions c x).1 = .error e := by
      intro x
      rw [runEntry_lost (by rw [SuiteCase.address_settled settled _ x.bag .empty, failed])]
    unfold runCase
    rw [Act.bind_ok (Act.modify_apply _ r)]
    exact Act.forM_fails fails member _

/-- A check and a run come to the same verdict on where the entries of a suite start, if there is no
brace in their URL. -/
theorem verdict_on_addresses (s : Suite) (config : RunConfig) :
    (s.problems config.join config.base?).filter (·.isAddress) =
        (s.before ++ s.cases).filterMap (·.addressProblem config.join config.base?) ∧
      ∀ c ∈ s.before ++ s.cases, c.Settled → ∃ found, Agreed σ config c found :=
  ⟨s.problems_isAddress _ _, fun _ _ settled => ⟨_, agreed_of_settled settled⟩⟩

/-- A case whose document has a relative URL. -/
def relativeCase : SuiteCase := ⟨"rows", "rows", ⟨none, none, [], none⟩, "", some "shop", "a.json"⟩

def relativeSuite : Suite := ⟨"a.json", "a", some "shop", [], [relativeCase]⟩

theorem relativeCase_settled : relativeCase.Settled := by
  rintro u ⟨⟩
  decide

theorem relativeCase_address :
    relativeCase.address plainConfig.join .empty plainConfig.base? = .error (.invalidUrl "rows" "shop" .noBase) := by
  have plain : interpolate .empty "shop" = "shop" := interpolate_plain (by decide)
  have bare : Text.trim "shop" = "shop" := by decide
  have relative : isAbsoluteUrl "shop" = false := by decide
  simp [SuiteCase.address, SuiteCase.writtenUrl, relativeCase, plainConfig, RunConfig.base?, effectiveBase,
    plain, bare, relative]

/-- Without a base, the check reports the relative URL over which every run of the case stops. -/
theorem relativeCase_refused :
    relativeCase.Settled ∧
      relativeCase.addressProblem plainConfig.join plainConfig.base? = some (.invalidUrl "rows" "shop" .noBase) ∧
      runEntry plainConfig none relativeCase Exec.twoParagraphs =
        (.error (.invalidUrl "rows" "shop" .noBase), Exec.twoParagraphs) := by
  obtain ⟨_, each⟩ := verdict_on_addresses (σ := Page) relativeSuite plainConfig
  obtain ⟨found, agreed⟩ := each relativeCase List.mem_cons_self relativeCase_settled
  have failed : found = .error (.invalidUrl "rows" "shop" .noBase) :=
    (agreed.fixed .empty).symm.trans relativeCase_address
  exact ⟨relativeCase_settled, (agreed.problem _).mpr failed, agreed.stopped _ failed none _⟩

end Runner
end PageSpec
