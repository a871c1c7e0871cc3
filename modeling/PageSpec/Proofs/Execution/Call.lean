import PageSpec.Execution.Action
import PageSpec.Proofs.Effect
/-!
Calls of functions. A call that is refused changes nothing, one that fails may leave other files, and the
answer of one that succeeds is stored under the usual name and under the alias, if there is one.
-/
namespace PageSpec

/-- The bag with the answer of a call: under the usual name, and then under the alias if there is one. -/
def Bag.withAnswer (b : Bag) (alias_ : Option String) (v : Json) : Bag :=
  match alias_ with
  | some key => (b.set resultKey v).set key v
  | none => b.set resultKey v

/-- The alias for the answer of a call, as it is written. -/
def aliasOf (written : Option Json) : Option String := (written.bind Json.str?).bind nonBlank?

namespace Exec
variable {c : Setting}

/-- How a call ends, from one run to another: it is refused before any function is called, or the
function fails, or its answer is stored. -/
inductive Called {σ : Type} (c : Setting) (run : Json) (alias_ : Option String) (r : Run σ) :
    Except Failure Unit → Run σ → Prop
  | refused {e : Failure} (early : e = .functionBag .absent ∨ e = .mistake (.runName run) ∨
      ∃ name, e = .unknownFunction name) : Called c run alias_ r (.error e) r
  | failed {b : FunctionBag} {name : String} {e : Failure} (given : c.functions = some b)
    (named : run.str?.bind nonBlank? = some name)
    (answer : (b.call c.starter name r.files).1 = .error e) :
    Called c run alias_ r (.error e) { r with files := (b.call c.starter name r.files).2 }
  | answered {b : FunctionBag} {name : String} {v : Json} (given : c.functions = some b)
    (named : run.str?.bind nonBlank? = some name)
    (answer : (b.call c.starter name r.files).1 = .ok v) :
    Called c run alias_ r (.ok ())
      { r with files := (b.call c.starter name r.files).2, bag := r.bag.withAnswer alias_ v }

theorem Called.session {σ : Type} {run : Json} {alias_ : Option String} {r q : Run σ}
    {x : Except Failure Unit} (ended : Called c run alias_ r x q) : q.session = r.session := by
  cases ended with
  | refused | failed | answered => rfl

theorem runFunction_called {σ : Type} (run : Json) (written : Option Json) (r : Run σ) :
    Called c run (aliasOf written) r (runFunction c run written r).1 (runFunction c run written r).2 := by
  unfold runFunction
  cases given : c.functions with
  | none => exact .refused (.inl rfl)
  | some b =>
    cases named : run.str?.bind nonBlank? with
    | none => exact .refused (.inr (.inl rfl))
    | some name =>
      by_cases there : b.has name = true
      · simp only [there, Bool.not_true, Bool.false_eq_true, ↓reduceIte]
        rw [Act.bind_ok (Act.get_apply r), Act.bind_ok (Act.modify_apply _ r)]
        cases answer : (b.call c.starter name r.files).1 with
        | error e => exact .failed given named answer
        | ok v =>
          have ended : Called c run (aliasOf written) r (.ok ()) { r with
              files := (b.call c.starter name r.files).2, bag := r.bag.withAnswer (aliasOf written) v } :=
            .answered given named answer
          unfold Bag.withAnswer aliasOf at ended
          unfold aliasOf
          cases aliased : (written.bind Json.str?).bind nonBlank? with
          | none => rw [aliased] at ended; exact ended
          | some key => rw [aliased] at ended; exact ended
      · have absent : b.has name = false := by simpa using there
        simp only [absent, Bool.not_false, ↓reduceIte]
        exact .refused (.inr (.inr ⟨name, rfl⟩))

end Exec
end PageSpec
