import PageSpec.Proofs.Effect
/-!
Bounds on computations: how they may move a state, and which failures they may end with. What is built
from computations within a bound is within it; a failure has to be admitted only where it is thrown.
-/
namespace PageSpec
variable {s α β : Type}

/-- A drift together with the failures that may end a computation. -/
structure Bound (s : Type) extends Drift s where
  May : Failure → Prop

namespace Bound

/-- From any state, the computation moves it along the drift and fails only as it may. -/
def Holds (B : Bound s) (a : Act s α) : Prop :=
  B.Allows a ∧ ∀ x e, (a x).1 = .error e → B.May e

/-- The bound of a drift: any failure may end a computation. -/
def free (D : Drift s) : Bound s := ⟨D, fun _ => True⟩

theorem holds_free {D : Drift s} {a : Act s α} : (free D).Holds a ↔ D.Allows a :=
  ⟨fun held => held.1, fun allowed => ⟨allowed, fun _ _ _ => trivial⟩⟩

namespace Holds
variable {B C : Bound s}

/-- What succeeds from every state may move as the drift allows. -/
theorem of_ok {a : Act s α} (allowed : B.Allows a) (passes : ∀ x, ∃ v, (a x).1 = .ok v) : B.Holds a := by
  refine ⟨allowed, fun x e failed => ?_⟩
  obtain ⟨v, passed⟩ := passes x
  cases passed.symm.trans failed

theorem pure (v : α) : B.Holds (pure v : Act s α) := of_ok (.pure v) fun _ => ⟨v, rfl⟩
theorem get : B.Holds (get : Act s s) := of_ok .get fun x => ⟨x, rfl⟩

theorem throw {e : Failure} (may : B.May e) : B.Holds (throw e : Act s α) :=
  ⟨.throw e, fun _ _ thrown => Except.error.inj thrown ▸ may⟩

theorem modify {f : s → s} (moves : ∀ x, B.Moves x (f x)) : B.Holds (modify f : Act s Unit) :=
  of_ok (.modify moves) fun _ => ⟨(), rfl⟩

/-- What comes next has to be within the bound only for what may really come first. -/
theorem bind_of {a : Act s α} {f : α → Act s β} (first : B.Holds a)
    (rest : ∀ x v y, a x = (.ok v, y) → B.Holds (f v)) : B.Holds (a >>= f) := by
  refine ⟨fun x => ?_, fun x e failed => ?_⟩
  · have moved := first.1 x
    rw [Act.bind_apply]
    rcases done : a x with ⟨e | v, y⟩
    · rw [done] at moved
      exact moved
    · rw [done] at moved
      exact B.trans moved ((rest x v y done).1 y)
  · rw [Act.bind_apply] at failed
    rcases done : a x with ⟨e' | v, y⟩
    · rw [done] at failed
      exact Except.error.inj failed ▸ first.2 x e' (congrArg Prod.fst done)
    · rw [done] at failed
      exact (rest x v y done).2 y e failed

theorem bind {a : Act s α} {f : α → Act s β} (first : B.Holds a) (rest : ∀ v, B.Holds (f v)) :
    B.Holds (a >>= f) := first.bind_of fun _ v _ _ => rest v

theorem tryCatch {a : Act s α} {h : Failure → Act s α} (body : B.Allows a)
    (handler : ∀ e, B.Holds (h e)) : B.Holds (tryCatch a h) := by
  refine ⟨.tryCatch body fun e => (handler e).1, fun x e failed => ?_⟩
  rw [Act.tryCatch_apply] at failed
  rcases done : a x with ⟨e' | v, y⟩
  · rw [done] at failed
    exact (handler e').2 y e failed
  · rw [done] at failed
    cases failed

theorem ite {p : Prop} [Decidable p] {a b : Act s α} (yes : B.Holds a) (no : B.Holds b) :
    B.Holds (if p then a else b) := by
  split
  · exact yes
  · exact no

/-- Something may be done first, or may end the computation with a failure. -/
theorem when {p : Prop} [Decidable p] {a : Act s Unit} {rest : Act s β} (first : B.Holds a)
    (others : B.Holds rest) : B.Holds (if p then a >>= fun _ => rest else rest) :=
  .ite (first.bind fun _ => others) others

theorem forM {f : α → Act s Unit} : ∀ (as : List α), (∀ a ∈ as, B.Holds (f a)) → B.Holds (as.forM f)
  | [], _ => pure ()
  | a :: as, each => bind (each a (by simp)) fun _ => forM as fun b member => each b (by simp [member])

/-- What is within a bound is within every wider one. -/
theorem mono {a : Act s α} (inside : B.Holds a) (moves : ∀ x y, B.Moves x y → C.Moves x y)
    (may : ∀ e, B.May e → C.May e) : C.Holds a :=
  ⟨fun x => moves _ _ (inside.1 x), fun x e failed => may e (inside.2 x e failed)⟩

end Holds
end Bound
end PageSpec
