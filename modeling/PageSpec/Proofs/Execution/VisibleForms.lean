import PageSpec.Proofs.Action.Single
import PageSpec.Proofs.Execution.Guards
/-!
Two forms of expecting that something is visible. The short form writes the target in place of an object; the
object may write it within, and a time next to it. Of the object the time alone is read. So an action that
names its target there has none, and it comes to what its short form comes to only where that has no target
either, or where neither gets as far as to look for one.
-/
namespace PageSpec
open Decoder

/-! ## Scopes that are not there -/

section
variable {σ : Type} [Browser σ]

/-- Failing over anything but a target that is not written. -/
def targeted : Bound σ := ⟨.any, fun e => ∀ need, e ≠ .missingTarget need⟩

theorem ensureFound_targeted (l : Locator) (stage : Stage) (raw : String) (hints : HintView) :
    targeted.Holds (ensureFound l stage raw hints : Act σ Unit) := by
  have counted : targeted.Holds (countMatches l : Act σ Nat) := .tryCatch (fun _ => trivial) fun _ => .pure _
  exact .bind counted fun _ => .ite (.throw nofun) (.pure _)

theorem narrow_targeted (scope : Locator) (stage : Stage) (selector : Option String) (hints : HintView) :
    targeted.Holds (narrow scope stage selector hints : Act σ Locator) := by
  cases selector with
  | none => exact .pure _
  | some s => exact .bind (ensureFound_targeted _ _ _ _) fun _ => .pure _

theorem climb_targeted {hints : HintView} {e : Failure} (failed : hints.climb = .error e) :
    ∀ need, e ≠ .missingTarget need := by
  unfold HintView.climb at failed
  split at failed
  · split at failed
    · cases failed
      nofun
    · cases failed
  · cases failed

/-- A scope is never lost for want of a target. -/
theorem buildScope_targeted (hints : HintView) (base : Locator) :
    targeted.Holds (buildScope hints base : Act σ Locator) := by
  have climbs (scope : Locator) : targeted.Holds (climbFrom scope hints : Act σ Locator) := by
    unfold climbFrom
    split
    · exact .pure _
    · refine .bind (ensureFound_targeted _ _ _ _) fun _ => ?_
      split
      · exact .pure _
      · rename_i e failed
        exact .throw (climb_targeted failed)
  exact .bind (narrow_targeted _ _ _ _) fun _ => .bind (climbs _) fun _ => narrow_targeted _ _ _ _

end

namespace Exec
variable {c : Setting} {sub : Locator → Json → Exec Page Unit} {base : Locator} {q r : Run Page} {a : Action}
  {aim : Aim} {s : VisibleCondition} {time : Option (Option Nat)} {fs : Fields}

/-! ## Performing one expectation -/

theorem forM_idle {σ : Type} (n : Nat) : (List.replicate n (pure () : Exec σ Unit)).forM id = pure () := by
  induction n with
  | zero => rfl
  | succ n ih =>
    rw [List.replicate_succ, Act.forM_cons, ih]
    exact pure_bind _ _

/-- An action with the expectation that something is visible, and with a time if there is one. -/
def expecting (s : VisibleCondition) (time : Option (Option Nat)) (a : Action) : Action :=
  { a with expectVisible := some s, timeout := time.getD a.timeout }

/-- An idle action that expects something to be visible does nothing else. -/
theorem perform_expecting (idle : a.Idle) (aims : Aims c base a q aim) :
    perform c sub base (expecting s time a) q = expectVisible c aim (expecting s time a) s q := by
  have aims : Aims c base (expecting s time a) q aim := ⟨aims.hints, aims.single, aims.built⟩
  have opened : closed aim (expecting s time a) q.session = false := by
    rw [idle]
    rfl
  have alone : operations c sub aim (expecting s time a) = List.replicate 11 (pure ()) ++
      expectVisible c aim (expecting s time a) s :: List.replicate 6 (pure ()) := by
    rw [idle]
    rfl
  rw [perform_aims aims, opened, alone, Act.forM_append, Act.forM_cons, forM_idle, forM_idle]
  simp only [Bool.false_eq_true, ↓reduceIte, id_eq, pure_bind, bind_pure_unit]

/-- The target that such an expectation writes, if any. -/
def written (a : Action) : VisibleCondition → Option String
  | .target t => nonBlank? t
  | .options _ => a.explicitTarget

theorem expectVisible_unwritten (missing : written a s = none) :
    (expectVisible c aim a s : Exec Page Unit) q = (.error (.missingTarget .expectVisible), q) := by
  have lost : (target [written a s] .expectVisible : Exec Page String) q =
      (.error (.missingTarget .expectVisible), q) := by
    rw [missing]
    rfl
  cases s with
  | target t => exact Act.bind_error lost _
  | options timeout => exact Act.bind_error lost _

/-- An action that aims nowhere fails, but not for want of a target, and so does any action with its hints. -/
theorem perform_unaimed (aimless : ¬ ∃ aim, Aims c base a q aim) :
    ∃ e, (∀ need, e ≠ .missingTarget need) ∧ ∀ b : Action, b.hints = a.hints → perform c sub base b q = (.error e, q) := by
  by_cases mixed : (c.hints a).Mixed
  · refine ⟨.invalidIndex, nofun, fun b same => perform_mixed ?_⟩
    unfold Setting.hints at mixed ⊢
    rwa [same]
  · obtain ⟨pick, picked, _⟩ := Page.resolve_asked mixed
    cases built : (buildScope (c.hints a) base q.session).1 with
    | ok scope => exact absurd ⟨⟨scope, c.hints a⟩, rfl, mixed, built⟩ aimless
    | error e =>
      refine ⟨e, (buildScope_targeted _ _).2 _ e built, fun b same => ?_⟩
      have hints : c.hints b = c.hints a := by unfold Setting.hints; rw [same]
      exact perform_lost (hints ▸ picked) (hints ▸ built)

/-! ## Actions with one operation -/

/-- Fields of an action that expects something to be visible and does nothing else. No two fields have one
name. -/
structure Sole (fs : Fields) : Prop where
  distinct : (Fields.keys fs).Nodup
  there : "expectVisible" ∈ Fields.keys fs
  only : ∀ k ∈ Fields.keys fs, k ∈ Action.operationKeys → k = "expectVisible"

namespace Sole
variable (sole : Sole fs)
include sole

theorem lacks {k : String} (operation : k ∈ Action.operationKeys) (other : k ≠ "expectVisible") :
    Fields.get? fs k = none := by
  cases found : Fields.get? fs k with
  | none => rfl
  | some v => exact absurd (sole.only k (List.mem_map.mpr ⟨_, Fields.mem_of_get? found, rfl⟩) operation) other

theorem filled (b : Bag) : fillAction b (.obj fs) = .obj (interpolateFields b fs) := by
  have loopless : (Json.obj fs).field? "forEach" = none := sole.lacks (by decide) (by decide)
  unfold fillAction
  rw [loopless, interpolateValue]
  rfl

/-- Such an action is read at once. -/
theorem action_eq_perform (c : Setting) (base : Locator) (r : Run Page) : action c base (.obj fs) r =
    match Action.ofJson (.obj (interpolateFields r.bag fs)) with
    | .ok a => perform c (action c) base a r
    | .error m => (.error (.mistake m), r) := by
  have unrouted : Fields.get? fs "route" = none := sole.lacks (by decide) (by decide)
  have uncalled : Fields.get? fs "run" = none := sole.lacks (by decide) (by decide)
  have operates : Action.hasOperation fs = true := by
    refine List.any_eq_true.mpr ⟨"expectVisible", by decide, ?_⟩
    by_contra absent
    exact Fields.has_eq_false_iff.mp (Bool.eq_false_iff.mpr absent) sole.there
  have prepared : preparation c fs r = (.ok (), r) := by
    unfold preparation routeStep
    rw [unrouted, uncalled]
    rfl
  have more : isBareRun fs = false := by
    unfold isBareRun Fields.has
    rw [uncalled]
    rfl
  rw [action_after operates prepared, more, sole.filled]
  rfl

end Sole

/-! ## Both forms -/

/-- Fields of an action whose only operation is to expect something to be visible, which names its target
within the expectation and not on the action, with or without a time. Next to such a time, one on the action can
be read. -/
structure OwnVisible (fs : Fields) (target : String) (limit : Option Nat) : Prop extends Sole fs where
  expected : ∃ own, Fields.get? fs "expectVisible" = some (.obj own) ∧
    Fields.get? own "loc" = some (.str target) ∧ VisibleCondition.decode (.obj own) = .ok (.options limit)
  apart : Fields.Lacks fs "loc"
  timed : limit ≠ none → ∀ v, Fields.get? fs "timeout" = some v → ∃ t, optional nat64 v = .ok t

/-- The short form of such an action: the target in place of the object, and the time on the action. -/
def inShort (fs : Fields) (target : String) (limit : Option Nat) : Fields :=
  let named := Fields.set fs "expectVisible" (.str target)
  match limit with
  | none => named
  | some t => Fields.set named "timeout" (.int t)

namespace OwnVisible
variable {target : String} {limit : Option Nat} (own : OwnVisible fs target limit)
include own

theorem sole_inShort : Sole (inShort fs target limit) := by
  have named : Sole (Fields.set fs "expectVisible" (.str target)) := by
    refine ⟨Fields.keys_set_nodup own.distinct, Fields.mem_keys_set.mpr (.inl rfl), ?_⟩
    intro k member operation
    rcases Fields.mem_keys_set.mp member with same | there
    · exact same
    · exact own.only k there operation
  cases limit with
  | none => exact named
  | some t =>
    refine ⟨Fields.keys_set_nodup named.distinct, Fields.mem_keys_set.mpr (.inr named.there), ?_⟩
    intro k member operation
    rcases Fields.mem_keys_set.mp member with rfl | there
    · exact absurd operation (by decide)
    · exact named.only k there operation

theorem expected_inShort : Fields.get? (inShort fs target limit) "expectVisible" = some (.str target) := by
  unfold inShort
  cases limit with
  | none => simp [Fields.get?_set]
  | some t => simp [Fields.get?_set]

/-- The time of the expectation can be read on the action. -/
theorem timed_inShort (timed : limit ≠ none) {v : Json}
    (found : Fields.get? (inShort fs target limit) "timeout" = some v) : ∃ t, optional nat64 v = .ok t := by
  obtain ⟨inner, _, _, read⟩ := own.expected
  cases limit with
  | none => exact absurd rfl timed
  | some t =>
    unfold inShort at found
    dsimp only at found
    rw [Fields.get?_set, if_pos rfl] at found
    cases found
    exact ⟨_, VisibleCondition.decode_time read⟩

end OwnVisible

/-- The fields that both forms have alike. -/
def beside (fs : Fields) (limit : Option Nat) : Fields :=
  let others := fs.without "expectVisible"
  if limit = none then others else others.without "timeout"

theorem beside_inShort (fs : Fields) (target : String) (limit : Option Nat) :
    beside (inShort fs target limit) limit = beside fs limit := by
  cases limit with
  | none => exact Fields.without_set _ _
  | some t =>
    unfold beside inShort
    dsimp only
    rw [if_neg nofun, if_neg nofun, Fields.without_comm, Fields.without_set, Fields.without_comm,
      Fields.without_set]

theorem mem_keys_beside {limit : Option Nat} {k : String} (member : k ∈ Fields.keys (beside fs limit)) :
    k ∈ Fields.keys fs ∧ k ≠ "expectVisible" := by
  unfold beside at member
  dsimp only at member
  split at member
  · exact Fields.mem_keys_without.mp member
  · exact Fields.mem_keys_without.mp (Fields.mem_keys_without.mp member).1

theorem keys_beside_nodup (distinct : (Fields.keys fs).Nodup) (limit : Option Nat) :
    (Fields.keys (beside fs limit)).Nodup := by
  have others : (Fields.keys (fs.without "expectVisible")).Nodup := Fields.keys_without_nodup distinct
  unfold beside
  dsimp only
  split
  · exact others
  · exact Fields.keys_without_nodup others

theorem get?_beside {limit : Option Nat} {k : String} (other : k ≠ "expectVisible") (other' : k ≠ "timeout") :
    Fields.get? (beside fs limit) k = Fields.get? fs k := by
  unfold beside
  dsimp only
  split
  · exact Fields.get?_without other fs
  · rw [Fields.get?_without other', Fields.get?_without other]

/-- Fields that expect something to be visible are read, whatever their tokens stand for, as what the others
write with the expectation. -/
theorem Sole.reads {v : Json} {limit : Option Nat} (sole : Sole fs)
    (found : Fields.get? fs "expectVisible" = some v) (b : Bag)
    (read : VisibleCondition.decode (interpolateValue b v) = .ok s)
    (timed : limit ≠ none → ∀ v, Fields.get? fs "timeout" = some v → ∃ t, optional nat64 v = .ok t) :
    ∃ time, Action.ofJson (.obj (interpolateFields b fs)) =
      (Action.ofJson (.obj (interpolateFields b (beside fs limit)))).map (expecting s time) := by
  have distinct : (Fields.keys (interpolateFields b fs)).Nodup := keys_interpolateFields b fs ▸ sole.distinct
  have there : Fields.get? (interpolateFields b fs) "expectVisible" = some (interpolateValue b v) := by
    rw [get?_interpolateFields, found]
    rfl
  have visible := Action.ofJson_visible distinct there read
  rw [without_interpolateFields] at visible
  rw [visible]
  unfold beside
  dsimp only
  split
  · exact ⟨none, rfl⟩
  · rename_i limited
    have distinct' : (Fields.keys (interpolateFields b (fs.without "expectVisible"))).Nodup := by
      rw [keys_interpolateFields]
      exact Fields.keys_without_nodup sole.distinct
    obtain ⟨time, same⟩ := Action.ofJson_timed distinct' fun w there => by
      rw [get?_interpolateFields, Fields.get?_without (by decide)] at there
      obtain ⟨w, written, rfl⟩ := Option.map_eq_some_iff.mp there
      obtain ⟨t, made⟩ := timed limited w written
      exact ⟨t, (nat64_untouched made b).symm ▸ made⟩
    rw [same, without_interpolateFields]
    refine ⟨time, ?_⟩
    cases Action.ofJson (.obj (interpolateFields b ((fs.without "expectVisible").without "timeout"))) <;> rfl

/-- What an action with a target of its own should come to: the same as its short form, and nothing that fails
for want of a target if its target is not blank. -/
def ActsInShort (c : Setting) (base : Locator) (fs : Fields) (target : String) (limit : Option Nat) (r : Run Page) :
    Prop :=
  action c base (.obj fs) r = action c base (.obj (inShort fs target limit)) r ∧
    (nonBlank? (interpolate r.bag target) ≠ none →
      (action c base (.obj fs) r).1 ≠ .error (.missingTarget .expectVisible))

/-- An action gets as far as its operations: it can be read, and it aims somewhere. -/
def Begins (c : Setting) (base : Locator) (fs : Fields) (r : Run Page) : Prop :=
  ∃ a aim, Action.ofJson (fillAction r.bag (.obj fs)) = .ok a ∧ Aims c base a r aim

section
variable {target : String} {limit : Option Nat} (own : OwnVisible fs target limit)
include own

/-- Both forms write the same but for the expectation and its time. -/
theorem OwnVisible.readings (b : Bag) : ∃ time time',
    Action.ofJson (.obj (interpolateFields b fs)) =
      (Action.ofJson (.obj (interpolateFields b (beside fs limit)))).map (expecting (.options limit) time) ∧
    Action.ofJson (.obj (interpolateFields b (inShort fs target limit))) =
      (Action.ofJson (.obj (interpolateFields b (beside fs limit)))).map
        (expecting (.target (interpolate b target)) time') := by
  obtain ⟨inner, found, _, read⟩ := own.expected
  obtain ⟨time, long⟩ := own.toSole.reads found b (VisibleCondition.decode_interpolated b read) own.timed
  obtain ⟨time', short⟩ := own.sole_inShort.reads own.expected_inShort b
    (s := .target (interpolate b target)) rfl fun timed v there => own.timed_inShort timed there
  rw [beside_inShort] at short
  exact ⟨time, time', long, short⟩

/-- Apart from the expectation there is nothing to do, and no target. -/
theorem OwnVisible.idle {b : Bag} (read : Action.ofJson (.obj (interpolateFields b (beside fs limit))) = .ok a) :
    a.Idle ∧ a.loc = none := by
  have keys {k : String} (member : k ∈ Fields.keys (interpolateFields b (beside fs limit))) :
      k ∈ Fields.keys fs ∧ k ≠ "expectVisible" := by
    rw [keys_interpolateFields] at member
    exact mem_keys_beside member
  refine ⟨Action.ofJson_idle read fun k member operation => ?_, Action.loc_none read ?_ ?_⟩
  · exact (keys member).2 (own.only k (keys member).1 operation)
  · rw [keys_interpolateFields]
    exact keys_beside_nodup own.distinct limit
  · intro v found
    rw [get?_interpolateFields, get?_beside (by decide) (by decide)] at found
    obtain ⟨w, there, rfl⟩ := Option.map_eq_some_iff.mp found
    rw [own.apart w there]
    rfl

/-- Where the action does not get as far as its operations, both forms fail alike, and not for want of a
target. -/
theorem OwnVisible.unbegun (stopped : ¬ Begins c base fs r) : ∃ e q, (∀ need, e ≠ .missingTarget need) ∧
    action c base (.obj fs) r = (.error e, q) ∧
      action c base (.obj (inShort fs target limit)) r = (.error e, q) := by
  obtain ⟨time, time', long, short⟩ := own.readings r.bag
  rw [own.toSole.action_eq_perform, own.sole_inShort.action_eq_perform, long, short]
  cases read : Action.ofJson (.obj (interpolateFields r.bag (beside fs limit))) with
  | error m => exact ⟨.mistake m, r, nofun, rfl, rfl⟩
  | ok a =>
    have aimless : ¬ ∃ aim, Aims c base (expecting (.options limit) time a) r aim := by
      rintro ⟨aim, aims⟩
      refine stopped ⟨_, aim, ?_, aims⟩
      rw [own.toSole.filled, long, read]
      rfl
    obtain ⟨e, other, fails⟩ := perform_unaimed aimless
    exact ⟨e, r, other, fails _ rfl, fails _ rfl⟩

/-- An action that gets as far as its operation has no target. Its short form has none either if its target is
blank. -/
theorem OwnVisible.begun (begins : Begins c base fs r) :
    action c base (.obj fs) r = (.error (.missingTarget .expectVisible), r) ∧
      (nonBlank? (interpolate r.bag target) = none →
        action c base (.obj (inShort fs target limit)) r = (.error (.missingTarget .expectVisible), r)) := by
  obtain ⟨time, time', long, short⟩ := own.readings r.bag
  obtain ⟨b, aim, read, aims⟩ := begins
  rw [own.toSole.filled, long] at read
  rw [own.toSole.action_eq_perform, own.sole_inShort.action_eq_perform, long, short]
  cases rest : Action.ofJson (.obj (interpolateFields r.bag (beside fs limit))) with
  | error m => rw [rest] at read; cases read
  | ok a =>
    rw [rest] at read
    cases read
    have aims : Aims c base a r aim := ⟨aims.hints, aims.single, aims.built⟩
    obtain ⟨idle, apart⟩ := own.idle rest
    constructor
    · have missing : written (expecting (.options limit) time a) (.options limit) = none := by
        have bare : (expecting (.options limit) time a).explicitTarget = a.loc := by
          rw [idle]
          exact Option.or_none
        exact bare.trans apart
      exact (perform_expecting idle aims).trans (expectVisible_unwritten missing)
    · intro blank
      exact (perform_expecting idle aims).trans (expectVisible_unwritten blank)

end

/-- An action that names its target within the expectation comes to what it should exactly if this target is
blank once its tokens are replaced, or if the action does not get as far as its operation. -/
theorem actsInShort_iff {target : String} {limit : Option Nat} (own : OwnVisible fs target limit) (c : Setting)
    (base : Locator) (r : Run Page) : ActsInShort c base fs target limit r ↔
      nonBlank? (interpolate r.bag target) = none ∨ ¬ Begins c base fs r := by
  unfold ActsInShort
  by_cases begins : Begins c base fs r
  · obtain ⟨long, short⟩ := own.begun begins
    rw [long]
    constructor
    · rintro ⟨_, found⟩
      by_contra neither
      exact found (fun blank => neither (.inl blank)) rfl
    · intro either
      have blank := either.resolve_right fun stopped => stopped begins
      exact ⟨(short blank).symm, fun full => absurd blank full⟩
  · obtain ⟨e, q, other, long, short⟩ := own.unbegun begins
    rw [long, short]
    exact ⟨fun _ => .inr begins, fun _ => ⟨rfl, fun _ same => other _ (Except.error.inj same)⟩⟩

/-- An expectation to see the element that a target means. -/
def seenAt (target : String) : Fields := [("expectVisible", .obj [("loc", .str target)])]

theorem seenAt_own (target : String) : OwnVisible (seenAt target) target none where
  distinct := by simp [seenAt, Fields.keys]
  there := by simp [seenAt, Fields.keys]
  only k member _ := by simpa [seenAt, Fields.keys] using member
  expected := ⟨_, rfl, rfl, rfl⟩
  apart v found := by cases found
  timed limited := absurd rfl limited

/-- A blank target is none in either form. -/
theorem blank_inShort : OwnVisible (seenAt " ") " " none ∧
    ActsInShort bareSetting .page (seenAt " ") " " none twoParagraphs := by
  have blank : nonBlank? (interpolate twoParagraphs.bag " ") = none := by decide +kernel
  exact ⟨seenAt_own " ", (actsInShort_iff (seenAt_own " ") _ _ _).mpr (.inl blank)⟩

/-- Paragraph `a` is there to be seen, but it is never looked for. -/
theorem seenAt_unsought : ¬ ∀ (fs : Fields) (target : String) (limit : Option Nat) (c : Setting) (base : Locator)
    (r : Run Page), OwnVisible fs target limit → ActsInShort c base fs target limit r := by
  intro always
  have same := (always _ "#a" none bareSetting .page twoParagraphs (seenAt_own "#a")).1
  have seen : (action bareSetting .page (.obj (inShort (seenAt "#a") "#a" none)) twoParagraphs).1.toOption =
      some () := by decide +kernel
  have lost : (action bareSetting .page (.obj (seenAt "#a")) twoParagraphs).1.toOption = none := by decide +kernel
  rw [same, seen] at lost
  cases lost

end Exec
end PageSpec
