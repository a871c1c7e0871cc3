import Mathlib.Data.List.Forall2
import Mathlib.Data.List.Nodup
/-!
Lists of named things. Where no name is repeated, what is found under a name is what stands in the list. Things that
are made one by one of others are found under the same names.
-/
namespace PageSpec
variable {κ α β ε : Type}

section
variable {x : Except ε α} {w : β}

theorem ok_of_map {f : α → β} (done : x.map f = .ok w) : ∃ v, x = .ok v ∧ f v = w := by
  cases x with
  | error e => cases done
  | ok v => exact ⟨v, rfl, Except.ok.inj done⟩

theorem ok_of_bind {f : α → Except ε β} (done : x.bind f = .ok w) : ∃ v, x = .ok v ∧ f v = .ok w := by
  cases x with
  | error e => cases done
  | ok v => exact ⟨v, rfl, done⟩

end

/-- Where no name is repeated, everything that stands under a name is found there. -/
theorem lookup_eq_some_iff [BEq κ] [LawfulBEq κ] {xs : List (κ × α)} (once : (xs.map Prod.fst).Nodup) {k : κ} {a : α} :
    xs.lookup k = some a ↔ (k, a) ∈ xs := by
  constructor
  · intro found
    obtain ⟨before, after, same, -⟩ := List.lookup_eq_some_iff.mp found
    rw [same]
    simp
  · intro member
    obtain ⟨before, after, same⟩ := List.append_of_mem member
    rw [same] at once ⊢
    refine List.lookup_eq_some_iff.mpr ⟨before, after, rfl, fun x inside => ?_⟩
    rw [bne_iff_ne]
    rintro rfl
    rw [List.map_append] at once
    exact (List.nodup_append.mp once).2.2 x.1 (List.mem_map.mpr ⟨x, inside, rfl⟩) x.1 (by simp) rfl

theorem lookup_eq_none_iff [BEq κ] [LawfulBEq κ] {xs : List (κ × α)} {k : κ} :
    xs.lookup k = none ↔ k ∉ xs.map Prod.fst := by
  rw [List.lookup_eq_none_iff, List.mem_map, not_exists]
  refine forall_congr' fun x => ?_
  rw [not_and, bne_iff_ne]
  exact imp_congr_right fun _ => ne_comm

/-- What is made of a list item by item. -/
theorem mapM_eq_ok_iff {f : α → Except ε β} {xs : List α} {ys : List β} :
    xs.mapM f = .ok ys ↔ List.Forall₂ (fun x y => f x = .ok y) xs ys := by
  induction xs generalizing ys with
  | nil => cases ys <;> simp [pure, Except.pure]
  | cons x xs ih =>
    rw [List.mapM_cons]
    cases first : f x with
    | error e => cases ys <;> simp [bind, Except.bind, first]
    | ok y => cases others : xs.mapM f with
      | error e => cases ys <;> simp [bind, Except.bind, first, ← ih, others]
      | ok zs => cases ys <;> simp [bind, Except.bind, pure, Except.pure, first, ← ih, others]

/-- What is made of a list fails with the first item that nothing is made of. -/
theorem mapM_eq_error_iff {f : α → Except ε β} {xs : List α} {e : ε} :
    xs.mapM f = .error e ↔
      ∃ early x late, xs = early ++ x :: late ∧ (∀ y ∈ early, ∃ b, f y = .ok b) ∧ f x = .error e := by
  induction xs with
  | nil => simp [pure, Except.pure]
  | cons x xs ih =>
    rw [List.mapM_cons]
    constructor
    · intro failed
      cases first : f x with
      | error e' =>
        rw [first] at failed
        cases failed
        exact ⟨[], x, xs, rfl, by simp, first⟩
      | ok b =>
        rw [first] at failed
        cases others : xs.mapM f with
        | ok bs => rw [others] at failed; cases failed
        | error e' =>
          rw [others] at failed
          cases failed
          obtain ⟨early, y, late, same, made, lost⟩ := ih.mp others
          refine ⟨x :: early, y, late, by rw [same]; rfl, ?_, lost⟩
          exact List.forall_mem_cons.mpr ⟨⟨b, first⟩, made⟩
    · rintro ⟨early, y, late, same, made, lost⟩
      cases early with
      | nil =>
        cases same
        rw [lost]
        rfl
      | cons z early =>
        cases same
        obtain ⟨⟨b, first⟩, made⟩ := List.forall_mem_cons.mp made
        rw [first, ih.mpr ⟨early, y, late, rfl, made, lost⟩]
        rfl

/-- Something keeps its name and is made by a function. -/
def Made (f : String → α → Except ε β) (x : String × α) (y : String × β) : Prop := y.1 = x.1 ∧ f x.1 x.2 = .ok y.2

section
variable {f : String → α → Except ε β} {xs : List (String × α)} {ys : List (String × β)}

theorem mapM_made_iff : (xs.mapM fun x => do return (x.1, ← f x.1 x.2)) = .ok ys ↔ List.Forall₂ (Made f) xs ys := by
  rw [mapM_eq_ok_iff]
  refine ⟨fun made => made.imp fun x y done => ?_, fun made => made.imp fun x y done => ?_⟩
  · cases read : f x.1 x.2 with
    | error e =>
      rw [read] at done
      cases done
    | ok b =>
      rw [read] at done
      cases done
      exact ⟨rfl, read⟩
  · obtain ⟨same, read⟩ := done
    rw [read]
    exact congrArg Except.ok (Prod.ext same.symm rfl)

theorem names_made (made : List.Forall₂ (Made f) xs ys) : ys.map Prod.fst = xs.map Prod.fst := by
  induction made with
  | nil => rfl
  | cons first _ ih => rw [List.map_cons, List.map_cons, first.1, ih]

/-- Under a name the thing is found that was made of what stood there. -/
theorem lookup_made (made : List.Forall₂ (Made f) xs ys) (name : String) :
    (xs.lookup name).map (f name) = (ys.lookup name).map .ok := by
  induction made with
  | nil => rfl
  | @cons x y xs ys first _ ih =>
    obtain ⟨same, made⟩ := first
    rw [List.lookup_cons, List.lookup_cons, same]
    by_cases here : name = x.1
    · subst here
      simp [made]
    · rw [beq_eq_false_iff_ne.mpr here]
      exact ih

theorem made_each (made : List.Forall₂ (Made f) xs ys) : ∀ x ∈ xs, ∃ b, f x.1 x.2 = .ok b := by
  induction made with
  | nil => exact nofun
  | cons first _ ih => exact List.forall_mem_cons.mpr ⟨⟨_, first.2⟩, ih⟩

theorem exists_made (each : ∀ x ∈ xs, ∃ b, f x.1 x.2 = .ok b) : ∃ ys, List.Forall₂ (Made f) xs ys := by
  induction xs with
  | nil => exact ⟨[], .nil⟩
  | cons x xs ih =>
    obtain ⟨b, first⟩ := each x List.mem_cons_self
    obtain ⟨ys, others⟩ := ih fun x member => each x (List.mem_cons_of_mem _ member)
    exact ⟨(x.1, b) :: ys, .cons ⟨rfl, first⟩ others⟩

end
end PageSpec
