import PageSpec.Browser.Basic
/-!
Computations on a state that may fail. The equations say what each way of building one comes to from
a given state. A drift is a way for a state to change that includes not changing and changing twice;
whatever is built from computations that a drift allows is allowed by it too, failures included.
-/
namespace PageSpec
variable {s α β : Type}

theorem eq_ok_of_toOption {ε : Type} {x : Except ε α} {v : α} (there : x.toOption = some v) :
    x = .ok v := by
  cases x with
  | error e => cases there
  | ok w => exact congrArg Except.ok (Option.some.inj there)

theorem bind_pure_eq_ok {ε : Type} {x : Except ε α} {f : α → β} {w : β} :
    (x >>= fun v => pure (f v)) = .ok w ↔ ∃ v, x = .ok v ∧ f v = w := by
  cases x with
  | error e => exact ⟨nofun, fun ⟨_, there, _⟩ => nomatch there⟩
  | ok v =>
    constructor
    · intro done
      exact ⟨v, rfl, Except.ok.inj done⟩
    · rintro ⟨_, there, rfl⟩
      cases there
      rfl

/-- What every step of a fold keeps holds after all of them. -/
theorem foldlM_keeps {ε : Type} {P : s → Prop} {f : s → β → Except ε s} :
    ∀ {xs : List β} {x z : s}, xs.foldlM f x = .ok z →
      (∀ b ∈ xs, ∀ y y', P y → f y b = .ok y' → P y') → P x → P z
  | [], _, _, folded, _, held => by cases folded; exact held
  | b :: xs, x, z, folded, step, held => by
    rw [List.foldlM_cons] at folded
    cases first : f x b with
    | error e => rw [first] at folded; cases folded
    | ok y =>
      rw [first] at folded
      exact foldlM_keeps folded (fun c member => step c (List.mem_cons_of_mem _ member))
        (step b List.mem_cons_self x y held first)

/-- A fold that comes to something has got through each of its steps. -/
theorem foldlM_each {ε : Type} {f : s → β → Except ε s} :
    ∀ {xs : List β} {x z : s}, xs.foldlM f x = .ok z → ∀ {b}, b ∈ xs → ∃ y y', f y b = .ok y'
  | a :: xs, x, z, folded, b, member => by
    rw [List.foldlM_cons] at folded
    cases first : f x a with
    | error e => rw [first] at folded; cases folded
    | ok y =>
      rw [first] at folded
      rcases List.mem_cons.mp member with rfl | later
      · exact ⟨x, y, first⟩
      · exact foldlM_each folded later

namespace Act

theorem pure_apply (v : α) (x : s) : (pure v : Act s α) x = (.ok v, x) := rfl
theorem throw_apply (e : Failure) (x : s) : (throw e : Act s α) x = (.error e, x) := rfl
theorem get_apply (x : s) : (get : Act s s) x = (.ok x, x) := rfl
theorem modify_apply (f : s → s) (x : s) : (modify f : Act s Unit) x = (.ok (), f x) := rfl

theorem bind_apply (a : Act s α) (f : α → Act s β) (x : s) :
    (a >>= f) x = match a x with
      | (.ok v, y) => f v y
      | (.error e, y) => (.error e, y) := by
  have step : (a >>= f) x = ExceptT.bindCont f (a x).1 (a x).2 := rfl
  rw [step]
  rcases a x with ⟨e | v, y⟩ <;> rfl

theorem bind_ok {a : Act s α} {x y : s} {v : α} (h : a x = (.ok v, y)) (f : α → Act s β) :
    (a >>= f) x = f v y := by
  rw [bind_apply, h]

theorem bind_error {a : Act s α} {x y : s} {e : Failure} (h : a x = (.error e, y))
    (f : α → Act s β) : (a >>= f) x = (.error e, y) := by
  rw [bind_apply, h]

/-- What a computation yields makes no difference to the state. -/
theorem discard_snd (a : Act s α) (x : s) : ((do let _ ← a : Act s Unit) x).2 = (a x).2 := by
  rw [bind_apply]
  rcases a x with ⟨e | v, y⟩ <;> rfl

/-- What succeeds as a whole succeeds step by step. -/
theorem bind_eq_ok {a : Act s α} {f : α → Act s β} {x z : s} {w : β}
    (done : (a >>= f) x = (.ok w, z)) : ∃ v y, a x = (.ok v, y) ∧ f v y = (.ok w, z) := by
  rw [bind_apply] at done
  rcases h : a x with ⟨e | v, y⟩
  · rw [h] at done; cases done
  · rw [h] at done; exact ⟨v, y, rfl, done⟩

theorem tryCatch_apply (a : Act s α) (h : Failure → Act s α) (x : s) :
    (tryCatch a h) x = match a x with
      | (.ok v, y) => (.ok v, y)
      | (.error e, y) => h e y := by
  simp only [tryCatch, tryCatchThe, MonadExceptOf.tryCatch, ExceptT.tryCatch, ExceptT.mk, bind,
    StateT.bind]
  rcases a x with ⟨e | v, y⟩
  · rfl
  · rfl

theorem forM_nil (f : α → Act s Unit) (x : s) : ([].forM f) x = (.ok (), x) := rfl

theorem forM_cons (a : α) (as : List α) (f : α → Act s Unit) :
    (a :: as).forM f = f a >>= fun _ => as.forM f := rfl

theorem forM_append (as bs : List α) (f : α → Act s Unit) :
    (as ++ bs).forM f = as.forM f >>= fun _ => bs.forM f := by
  induction as with
  | nil => funext x; rw [bind_ok (forM_nil f x)]; rfl
  | cons a as ih => rw [List.cons_append, forM_cons, ih, forM_cons, bind_assoc]

theorem forM_congr {f g : α → Act s Unit} :
    ∀ {as : List α}, (∀ a ∈ as, f a = g a) → as.forM f = as.forM g
  | [], _ => rfl
  | a :: as, same => by
    rw [forM_cons, forM_cons, same a List.mem_cons_self,
      forM_congr fun b member => same b (List.mem_cons_of_mem a member)]

end Act

/-! ## Drifts -/

/-- A way for a state to change that includes not changing and changing twice. -/
structure Drift (s : Type) where
  Moves : s → s → Prop
  refl : ∀ x, Moves x x
  trans : ∀ {x y z}, Moves x y → Moves y z → Moves x z

namespace Drift
variable {D : Drift s}

/-- Not changing at all. -/
def still : Drift s := ⟨fun x y => y = x, fun _ => rfl, fun h h' => h'.trans h⟩

/-- Changing in any way. -/
def any : Drift s := ⟨fun _ _ => True, fun _ => trivial, fun _ _ => trivial⟩

/-- Changing everything but what is looked at. -/
def keeping {γ : Type} (look : s → γ) : Drift s :=
  ⟨fun x y => look y = look x, fun _ => rfl, fun h h' => h'.trans h⟩

/-- From any state, the computation moves it along the drift, also when it fails. -/
def Allows (D : Drift s) (a : Act s α) : Prop := ∀ x, D.Moves x (a x).2

namespace Allows

theorem still_eq {a : Act s α} (kept : still.Allows a) (x : s) : a x = ((a x).1, x) :=
  Prod.ext rfl (kept x)

theorem pure (v : α) : D.Allows (pure v : Act s α) := fun x => D.refl x
theorem throw (e : Failure) : D.Allows (throw e : Act s α) := fun x => D.refl x
theorem get : D.Allows (get : Act s s) := fun x => D.refl x
theorem modify {f : s → s} (moves : ∀ x, D.Moves x (f x)) : D.Allows (modify f : Act s Unit) := moves

theorem bind {a : Act s α} {f : α → Act s β} (first : D.Allows a) (rest : ∀ v, D.Allows (f v)) :
    D.Allows (a >>= f) := by
  intro x
  have moved := first x
  rw [Act.bind_apply]
  rcases h : a x with ⟨v | v, y⟩
  · rw [h] at moved; exact moved
  · rw [h] at moved; exact D.trans moved (rest v y)

theorem tryCatch {a : Act s α} {h : Failure → Act s α} (body : D.Allows a)
    (handler : ∀ e, D.Allows (h e)) : D.Allows (tryCatch a h) := by
  intro x
  have moved := body x
  rw [Act.tryCatch_apply]
  rcases r : a x with ⟨e | v, y⟩
  · rw [r] at moved; exact D.trans moved (handler e y)
  · rw [r] at moved; exact moved

theorem forM {f : α → Act s Unit} : ∀ (as : List α), (∀ a ∈ as, D.Allows (f a)) → D.Allows (as.forM f)
  | [], _ => pure ()
  | a :: as, each => bind (each a (by simp)) fun _ => forM as fun b member => each b (by simp [member])

theorem ite {p : Prop} [Decidable p] {a b : Act s α} (yes : D.Allows a) (no : D.Allows b) :
    D.Allows (if p then a else b) := by
  split
  · exact yes
  · exact no

/-- Something may be done first, or may end the computation with a failure. -/
theorem when {p : Prop} [Decidable p] {a : Act s Unit} {rest : Act s β} (first : D.Allows a)
    (others : D.Allows rest) : D.Allows (if p then a >>= fun _ => rest else rest) :=
  .ite (first.bind fun _ => others) others

end Allows
end Drift

/-- A computation that changes nothing counts in a sequence by its own success alone. -/
theorem forM_insert_ok_iff {o : Act s Unit} (kept : Drift.still.Allows o) (as bs : List (Act s Unit))
    (x : s) : ((as ++ o :: bs).forM id x).1 = .ok () ↔
      ((as ++ bs).forM id x).1 = .ok () ∧ (o (as.forM id x).2).1 = .ok () := by
  rw [Act.forM_append, Act.forM_append]
  rcases first : as.forM id x with ⟨e | _, y⟩
  · rw [Act.bind_error first, Act.bind_error first]
    simp
  · rw [Act.bind_ok first, Act.bind_ok first, Act.forM_cons]
    have middle : id o y = ((o y).1, y) := kept.still_eq y
    cases done : (o y).1 with
    | error e =>
      rw [done] at middle
      rw [Act.bind_error middle]
      simp
    | ok _ =>
      rw [done] at middle
      rw [Act.bind_ok middle]
      simp

end PageSpec
