import PageSpec.Proofs.Decimal.Value
import PageSpec.Proofs.Page.Locating
/-!
The stages of a scope on a page in memory. A scope is written out in full here, from the base to its last step,
and so are the demands it makes on the way, in their order: the root, the anchor of a climb and the inner
selector have to stand for something where they are looked for, and the climb may not be too far. A scope is
there if all of them are met, and otherwise it fails over the first that is not.
-/
namespace PageSpec

/-! ## Scopes in full -/

namespace HintView
variable (v : HintView) (base : Locator)

/-- How far to climb: the whole part of the index, and one level at least. -/
def levels : Nat :=
  match v.effective (·.index) with
  | some x => max 1 ⌊x.value⌋.toNat
  | none => 1

/-- The step from the scope so far to the anchor of a climb. -/
def anchorStep (parent : String) : Step := if isSelectorText parent then .css parent else .text parent

/-- The base with its frames and its root. -/
def rooted : Locator := ⟨base.steps ++ v.frames.map .frame ++ (v.root.map .css).toList⟩

/-- The scope down to the anchor of a climb. -/
def anchored : Locator := ⟨(v.rooted base).steps ++ (v.parent.map anchorStep).toList⟩

/-- The scope after the climb. -/
def climbed : Locator :=
  ⟨(v.anchored base).steps ++ if v.parent.isSome then List.replicate v.levels .parent else []⟩

/-- The whole scope. -/
def inner : Locator := ⟨(v.climbed base).steps ++ (v.within.map .css).toList⟩

end HintView

/-- What has to be so for a scope to be there. -/
inductive Demand where
  /-- A locator stands for something; a text is looked for there at some stage. -/
  | there (place : Locator) (stage : Stage) (raw : String)
  /-- A climb is not too far. -/
  | near (index : Binary64)

namespace Demand

def Met (f : Page.Forest) : Demand → Prop
  | .there place _ _ => ∃ i rest, Page.resolve f place = .ok (i :: rest)
  | .near index => index.value ≤ maxClimb

/-- What a demand fails with that is not met. -/
def failure (hints : HintView) : Demand → Failure
  | .there _ stage raw => .notFound stage raw hints.describe
  | .near index => .mistake (.climbTooFar index maxClimb)

end Demand

namespace HintView
variable (v : HintView) (base : Locator)

/-- The demands on the anchor of a climb and on how far it goes. -/
def climbDemands : List Demand :=
  match v.parent with
  | some parent => .there (v.anchored base) .parent parent :: ((v.effective (·.index)).map .near).toList
  | none => []

/-- The demands of the stages that are written, in their order. -/
def demands : List Demand :=
  (v.root.map (.there (v.rooted base) .root)).toList ++ v.climbDemands base ++
    (v.within.map (.there (v.inner base) .within)).toList

end HintView

/-! ## Demands one after another -/

/-- How a computation ends that makes demands on the elements and gives a value: all of them are met, or it fails
over the first that is not. -/
inductive Ends {α : Type} (f : Page.Forest) (hints : HintView) (demands : List Demand) (value : α) :
    Except Failure α → Prop
  | met (all : ∀ d ∈ demands, d.Met f) : Ends f hints demands value (.ok value)
  | missed {before after : List Demand} {d : Demand} (split : demands = before ++ d :: after)
    (earlier : ∀ d' ∈ before, d'.Met f) (unmet : ¬ d.Met f) : Ends f hints demands value (.error (d.failure hints))

/-- A computation leaves the page as it is and ends as its demands are met. -/
def Page.Requires {α : Type} (p : Page) (hints : HintView) (demands : List Demand) (value : α) (a : Act Page α) : Prop :=
  (a p).2 = p ∧ Ends p.forest hints demands value (a p).1

section
variable {α β : Type} {f : Page.Forest} {p : Page} {hints : HintView} {ds ds' : List Demand} {u : α} {v : β}

/-- The first demand that is not met is one and the same however it is come by. -/
theorem first_unmet {P : Demand → Prop} : ∀ {before before' after after' : List Demand} {d d' : Demand},
    before ++ d :: after = before' ++ d' :: after' → (∀ x ∈ before, P x) → ¬ P d → (∀ x ∈ before', P x) → ¬ P d' →
      d = d'
  | [], [], _, _, _, _, same, _, _, _, _ => List.head_eq_of_cons_eq same
  | [], _ :: _, _, _, _, _, same, _, unmet, earlier, _ => by
    cases List.head_eq_of_cons_eq same
    exact absurd (earlier _ List.mem_cons_self) unmet
  | _ :: _, [], _, _, _, _, same, earlier, _, _, unmet => by
    cases List.head_eq_of_cons_eq same
    exact absurd (earlier _ List.mem_cons_self) unmet
  | _ :: _, _ :: _, _, _, _, _, same, earlier, unmet, earlier', unmet' =>
    first_unmet (List.tail_eq_of_cons_eq same) (fun x member => earlier x (List.mem_cons_of_mem _ member)) unmet
      (fun x member => earlier' x (List.mem_cons_of_mem _ member)) unmet'

namespace Ends
variable {x : Except Failure α} {w : α} {e : Failure}

theorem ok_iff (ends : Ends f hints ds u x) : x = .ok w ↔ (∀ d ∈ ds, d.Met f) ∧ w = u := by
  cases ends with
  | met all =>
    rw [Except.ok.injEq, eq_comm]
    exact ⟨fun same => ⟨all, same⟩, fun both => both.2⟩
  | missed split earlier unmet =>
    refine ⟨nofun, fun ⟨all, _⟩ => absurd (all _ ?_) unmet⟩
    rw [split]
    exact List.mem_append_right _ List.mem_cons_self

theorem error_iff (ends : Ends f hints ds u x) : x = .error e ↔ ∃ before d after, ds = before ++ d :: after ∧
    (∀ d' ∈ before, d'.Met f) ∧ ¬ d.Met f ∧ e = d.failure hints := by
  cases ends with
  | met all =>
    refine ⟨nofun, fun ⟨before, d, after, split, _, unmet, _⟩ => absurd (all d ?_) unmet⟩
    rw [split]
    exact List.mem_append_right _ List.mem_cons_self
  | missed split earlier unmet =>
    constructor
    · intro failed
      exact ⟨_, _, _, split, earlier, unmet, (Except.error.inj failed).symm⟩
    · rintro ⟨before, d, after, split', earlier', unmet', rfl⟩
      rw [first_unmet (split.symm.trans split') earlier unmet earlier' unmet']

/-- One demand settles the end. -/
theorem single {d : Demand} (met : d.Met f → x = .ok u) (missed : ¬ d.Met f → x = .error (d.failure hints)) :
    Ends f hints [d] u x := by
  by_cases there : d.Met f
  · rw [met there]
    exact .met fun d' member => List.mem_singleton.mp member ▸ there
  · rw [missed there]
    have first : [d] = [] ++ d :: [] := rfl
    exact .missed first nofun there

end Ends

namespace Page.Requires

theorem pure (u : α) : p.Requires hints [] u (Pure.pure u) := ⟨rfl, .met nofun⟩

/-- The demands of the second part come after those of the first. -/
theorem bind {a : Act Page α} {g : α → Act Page β} (first : p.Requires hints ds u a)
    (next : p.Requires hints ds' v (g u)) : p.Requires hints (ds ++ ds') v (a >>= g) := by
  obtain ⟨still, ends⟩ := first
  obtain ⟨still', ends'⟩ := next
  rcases done : a p with ⟨e | w, q⟩
  · rw [done] at still ends
    rw [Page.Requires, Act.bind_error done]
    refine ⟨still, ?_⟩
    cases ends with
    | missed split earlier unmet =>
      exact .missed (by rw [split, List.append_assoc, List.cons_append]) earlier unmet
  · rw [done] at still ends
    obtain ⟨all, rfl⟩ := ends.ok_iff.mp rfl
    obtain rfl : q = p := still
    rw [Page.Requires, Act.bind_ok done]
    refine ⟨still', ?_⟩
    generalize (g w q).1 = y at ends'
    cases ends' with
    | met all' => exact .met fun d member => (List.mem_append.mp member).elim (all d) (all' d)
    | missed split earlier unmet =>
      refine .missed (by rw [split, List.append_assoc]) (fun d member => ?_) unmet
      exact (List.mem_append.mp member).elim (all d) (earlier d)

/-- Looking for something is one demand. -/
theorem ensureFound (place : Locator) (stage : Stage) (raw : String) :
    p.Requires hints [.there place stage raw] () (PageSpec.ensureFound place stage raw hints) := by
  cases found : resolve p.forest place with
  | error e =>
    rw [Page.Requires, ensureFound_lost found]
    refine ⟨rfl, .single (fun ⟨i, rest, there⟩ => ?_) fun _ => rfl⟩
    cases found.symm.trans there
  | ok es =>
    rw [Page.Requires, ensureFound_ok found]
    cases es with
    | nil =>
      refine ⟨rfl, .single (fun ⟨i, rest, there⟩ => ?_) fun _ => rfl⟩
      cases found.symm.trans there
    | cons i rest => exact ⟨rfl, .single (fun _ => rfl) fun unmet => absurd ⟨i, rest, found⟩ unmet⟩

end Page.Requires
end

/-! ## Stages -/

theorem Locator.add_steps (l : Locator) (s : Step) : (l.add s).steps = l.steps ++ [s] := rfl

theorem Locator.climb_eq (l : Locator) : ∀ n, l.climb n = ⟨l.steps ++ List.replicate n .parent⟩
  | 0 => by simp only [climb, List.replicate_zero, List.append_nil]
  | n + 1 => by
    rw [climb, climb_eq, add_steps, List.append_assoc]
    rfl

theorem Locator.enter_eq (base : Locator) : ∀ frames : List String,
    frames.foldl (fun l f => l.add (.frame f)) base = ⟨base.steps ++ frames.map .frame⟩
  | [] => by simp only [List.foldl_nil, List.map_nil, List.append_nil]
  | f :: frames => by
    rw [List.foldl_cons, enter_eq, add_steps, List.append_assoc]
    rfl

section
variable {p : Page} (v : HintView) (base : Locator)

theorem narrow_requires (scope : Locator) (stage : Stage) (selector : Option String) :
    p.Requires v (selector.map (.there ⟨scope.steps ++ (selector.map .css).toList⟩ stage)).toList
      ⟨scope.steps ++ (selector.map .css).toList⟩ (narrow scope stage selector v) := by
  cases selector with
  | none =>
    have same : (⟨scope.steps ++ []⟩ : Locator) = scope := by rw [List.append_nil]
    simp only [Option.map_none, Option.toList_none, same]
    exact .pure scope
  | some s => exact (Page.Requires.ensureFound (scope.css s) stage s).bind (.pure (scope.css s))

/-- How far to climb is one demand where it is written. -/
theorem levels_requires (start : Locator) :
    p.Requires v ((v.effective (·.index)).map .near).toList (start.climb v.levels)
      (match v.climb with
        | .ok levels => return start.climb levels
        | .error e => throw e) := by
  unfold HintView.climb HintView.levels
  cases v.effective (·.index) with
  | none => exact .pure _
  | some x =>
    simp only [Binary64.truncated_toNat]
    by_cases far : x.exceeds maxClimb
    · have unmet : ¬ x.value ≤ (maxClimb : ℚ) := not_le.mpr (Binary64.exceeds_iff.mp far)
      rw [if_pos far]
      exact ⟨rfl, .single (fun near => absurd near unmet) fun _ => rfl⟩
    · have near : x.value ≤ (maxClimb : ℚ) := not_lt.mp fun above => far (Binary64.exceeds_iff.mpr above)
      rw [if_neg far]
      exact ⟨rfl, .single (fun _ => rfl) fun unmet => absurd near unmet⟩

theorem climbFrom_requires : p.Requires v (v.climbDemands base) (v.climbed base) (climbFrom (v.rooted base) v) := by
  unfold climbFrom HintView.climbDemands HintView.climbed HintView.anchored
  cases v.parent with
  | none =>
    simp only [Option.map_none, Option.toList_none, List.append_nil, Option.isSome_none, Bool.false_eq_true, ↓reduceIte]
    exact .pure _
  | some parent =>
    have start : anchor (v.rooted base) parent = ⟨(v.rooted base).steps ++ [HintView.anchorStep parent]⟩ := by
      unfold anchor HintView.anchorStep
      split <;> rfl
    simp only [start, Option.map_some, Option.toList_some, Option.isSome_some, ↓reduceIte]
    have climbing := levels_requires (p := p) v ⟨(v.rooted base).steps ++ [HintView.anchorStep parent]⟩
    rw [Locator.climb_eq] at climbing
    exact (Page.Requires.ensureFound _ .parent parent).bind climbing

theorem buildScope_requires : p.Requires v (v.demands base) (v.inner base) (buildScope v base) := by
  unfold buildScope HintView.demands
  rw [List.append_assoc, Locator.enter_eq]
  exact (narrow_requires v _ .root v.root).bind
    ((climbFrom_requires v base).bind (narrow_requires v (v.climbed base) .within v.within))

end

namespace Page

/-- A scope is there exactly if all of its demands are met, and then it is the written-out one; otherwise looking
for it fails over the first demand that is not met. The page stays as it is. -/
theorem buildScope_staged (p : Page) (hints : HintView) (base : Locator) :
    (buildScope hints base p).2 = p ∧
    (∀ l, (buildScope hints base p).1 = .ok l ↔ (∀ d ∈ hints.demands base, d.Met p.forest) ∧ l = hints.inner base) ∧
    ∀ e, (buildScope hints base p).1 = .error e ↔ ∃ before d after, hints.demands base = before ++ d :: after ∧
      (∀ d' ∈ before, d'.Met p.forest) ∧ ¬ d.Met p.forest ∧ e = d.failure hints := by
  obtain ⟨still, ends⟩ := buildScope_requires (p := p) hints base
  exact ⟨still, fun l => ends.ok_iff, fun e => ends.error_iff⟩

end Page
end PageSpec
