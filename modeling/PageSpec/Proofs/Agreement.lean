import Mathlib.Data.List.Forall2
import PageSpec.Proofs.Effect
/-!
Computations that agree along a relation of states. From related states they yield the same, failures included, and
lead to related states. What is built in one way from computations that agree agrees as well.
-/
namespace PageSpec
variable {s t α β : Type}

/-- From related states, both computations yield the same and lead to related states. -/
def Agree (R : s → t → Prop) (a : Act s α) (b : Act t α) : Prop :=
  ∀ x y, R x y → (a x).1 = (b y).1 ∧ R (a x).2 (b y).2

namespace Agree
variable {R : s → t → Prop}

theorem ends {a : Act s α} {b : Act t α} (agree : Agree R a b) {x : s} {y : t} (related : R x y) :
    ∃ z x' y', a x = (z, x') ∧ b y = (z, y') ∧ R x' y' :=
  ⟨_, _, _, rfl, Prod.ext (agree x y related).1.symm rfl, (agree x y related).2⟩

theorem pure (v : α) : Agree R (pure v) (pure v) := fun _ _ related => ⟨rfl, related⟩
theorem throw (e : Failure) : Agree R (throw e : Act s α) (throw e) := fun _ _ related => ⟨rfl, related⟩

theorem modify {f : s → s} {g : t → t} (moves : ∀ x y, R x y → R (f x) (g y)) : Agree R (modify f) (modify g) :=
  fun x y related => ⟨rfl, moves x y related⟩

/-- What is made of related states has to agree; the states themselves need not be the same. -/
theorem get {f : s → Act s α} {g : t → Act t α} (each : ∀ x y, R x y → Agree R (f x) (g y)) :
    Agree R (get >>= f) (get >>= g) := by
  intro x y related
  rw [Act.bind_ok (Act.get_apply x), Act.bind_ok (Act.get_apply y)]
  exact each x y related x y related

theorem bind {a : Act s α} {b : Act t α} {f : α → Act s β} {g : α → Act t β} (first : Agree R a b)
    (rest : ∀ v, Agree R (f v) (g v)) : Agree R (a >>= f) (b >>= g) := by
  intro x y related
  obtain ⟨z, x', y', done, done', led⟩ := first.ends related
  rw [Act.bind_apply, Act.bind_apply, done, done']
  cases z with
  | error e => exact ⟨rfl, led⟩
  | ok v => exact rest v x' y' led

theorem tryCatch {a : Act s α} {b : Act t α} {h : Failure → Act s α} {k : Failure → Act t α} (body : Agree R a b)
    (handler : ∀ e, Agree R (h e) (k e)) : Agree R (tryCatch a h) (tryCatch b k) := by
  intro x y related
  obtain ⟨z, x', y', done, done', led⟩ := body.ends related
  rw [Act.tryCatch_apply, Act.tryCatch_apply, done, done']
  cases z with
  | error e => exact handler e x' y' led
  | ok v => exact ⟨rfl, led⟩

theorem forM {f : α → Act s Unit} {g : α → Act t Unit} (each : ∀ v, Agree R (f v) (g v)) :
    ∀ vs : List α, Agree R (vs.forM f) (vs.forM g)
  | [] => pure ()
  | v :: vs => (each v).bind fun _ => forM each vs

/-- Computations that agree one by one agree when they are run one after another. -/
theorem sequence {as : List (Act s Unit)} {bs : List (Act t Unit)} (each : List.Forall₂ (Agree R) as bs) :
    Agree R (as.forM id) (bs.forM id) := by
  induction each with
  | nil => exact pure ()
  | cons first _ ih => exact first.bind fun _ => ih

theorem ite {p : Prop} [Decidable p] {a a' : Act s α} {b b' : Act t α} (yes : Agree R a b) (no : Agree R a' b') :
    Agree R (if p then a else a') (if p then b else b') := by
  split
  · exact yes
  · exact no

/-- Something may be done first, or may end both computations with a failure. -/
theorem when {p : Prop} [Decidable p] {a : Act s Unit} {b : Act t Unit} {rest : Act s β} {rest' : Act t β}
    (first : Agree R a b) (others : Agree R rest rest') :
    Agree R (if p then a >>= fun _ => rest else rest) (if p then b >>= fun _ => rest' else rest') :=
  .ite (first.bind fun _ => others) others

end Agree
end PageSpec
