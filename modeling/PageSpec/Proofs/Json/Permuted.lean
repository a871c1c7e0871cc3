import Mathlib.Data.List.Pairwise
import PageSpec.Proofs.Json.Record
/-!
Fields in another order. What is found under a name, what is written under one and what a record reads
do not depend on the order of the fields, as long as no name stands twice.
-/
namespace PageSpec

namespace Fields
variable {fs fs' : Fields}

theorem get?_of_mem : ∀ {fs : Fields} {name : String} {v : Json}, (keys fs).Nodup → (name, v) ∈ fs →
    fs.get? name = some v
  | (k, w) :: rest, name, v, distinct, member => by
    obtain ⟨fresh, others⟩ := List.nodup_cons.mp distinct
    rcases List.mem_cons.mp member with same | later
    · cases same
      exact if_pos rfl
    · have other : k ≠ name := fun same => fresh (same ▸ List.mem_map.mpr ⟨_, later, rfl⟩)
      rw [get?, if_neg other]
      exact get?_of_mem others later

theorem get?_eq_some_iff (distinct : (keys fs).Nodup) {name : String} {v : Json} :
    fs.get? name = some v ↔ (name, v) ∈ fs := ⟨mem_of_get?, get?_of_mem distinct⟩

theorem keys_perm (permuted : fs.Perm fs') : (keys fs).Perm (keys fs') := permuted.map _

theorem get?_perm (distinct : (keys fs).Nodup) (permuted : fs.Perm fs') (name : String) :
    fs.get? name = fs'.get? name := by
  have distinct' : (keys fs').Nodup := (keys_perm permuted).nodup_iff.mp distinct
  ext v
  rw [get?_eq_some_iff distinct, get?_eq_some_iff distinct', permuted.mem_iff]

theorem has_perm (distinct : (keys fs).Nodup) (permuted : fs.Perm fs') (name : String) :
    fs.has name = fs'.has name := by
  unfold has
  rw [get?_perm distinct permuted]

theorem set_eq_map (v : Json) : ∀ {fs : Fields} {name : String}, (keys fs).Nodup → name ∈ keys fs →
    fs.set name v = fs.map fun f => if f.1 = name then (f.1, v) else f
  | (k, w) :: rest, name, distinct, there => by
    obtain ⟨fresh, others⟩ := List.nodup_cons.mp distinct
    rw [set, List.map_cons]
    by_cases same : k = name
    · -- Behind the field that is written no other one has its name.
      have kept : rest.map (fun f => if f.1 = name then (f.1, v) else f) = rest := by
        refine (List.map_congr_left fun f member => if_neg fun same' => fresh ?_).trans (List.map_id _)
        exact List.mem_map.mpr ⟨f, member, same'.trans same.symm⟩
      rw [if_pos same, kept]
      exact congrArg (· :: rest) (if_pos same).symm
    · have later : name ∈ keys rest := (List.mem_cons.mp there).resolve_left fun h => same h.symm
      rw [if_neg same, set_eq_map v others later]
      exact congrArg (· :: _) (if_neg same).symm

theorem set_perm (distinct : (keys fs).Nodup) (permuted : fs.Perm fs') {name : String}
    (there : name ∈ keys fs) (v : Json) : (fs.set name v).Perm (fs'.set name v) := by
  have keys' := keys_perm permuted
  rw [set_eq_map v distinct there, set_eq_map v (keys'.nodup_iff.mp distinct) (keys'.mem_iff.mp there)]
  exact permuted.map _

end Fields

namespace Decoder
variable {σ α β : Type}

/-- Two steps of a fold come to the same in either order, if they come to anything. -/
def Commute {ε : Type} (f : σ → β → Except ε σ) (a b : β) : Prop :=
  ∀ s r, (f s a >>= (f · b)) = .ok r ↔ (f s b >>= (f · a)) = .ok r

theorem Commute.symm {ε : Type} {f : σ → β → Except ε σ} {a b : β} (either : Commute f a b) :
    Commute f b a := fun s r => (either s r).symm

theorem foldlM_perm {ε : Type} {f : σ → β → Except ε σ} {xs ys : List β} (permuted : xs.Perm ys)
    (commute : xs.Pairwise (Commute f)) {s r : σ} (folded : xs.foldlM f s = .ok r) :
    ys.foldlM f s = .ok r := by
  induction permuted generalizing s with
  | nil => exact folded
  | cons a _ ih =>
    rw [List.foldlM_cons] at folded ⊢
    cases first : f s a with
    | error e => rw [first] at folded; cases folded
    | ok t =>
      rw [first] at folded
      exact ih (List.pairwise_cons.mp commute).2 folded
  | swap a b xs =>
    rw [List.foldlM_cons] at folded ⊢
    simp only [List.foldlM_cons] at folded ⊢
    rw [← bind_assoc] at folded ⊢
    have either : Commute f b a := (List.pairwise_cons.mp commute).1 a List.mem_cons_self
    cases both : f s b >>= (f · a) with
    | error e => rw [both] at folded; cases folded
    | ok t =>
      rw [both] at folded
      rw [(either s t).mp both]
      exact folded
  | trans first _ ih ih' => exact ih' ((first.pairwise_iff Commute.symm).mp commute) (ih commute folded)

/-- Two slots fill a record in either order. -/
def Slot.Commute (one other : Slot σ) : Prop :=
  ∀ v w s r, (one.put v s >>= other.put w) = .ok r ↔ (other.put w s >>= one.put v) = .ok r

instance : Std.Symm (Slot.Commute (σ := σ)) := ⟨fun _ _ either v w s r => (either w v s r).symm⟩

theorem Slot.of_commute {name name' : String} {d : Decoder α} {d' : Decoder β} {store : α → σ → σ}
    {store' : β → σ → σ} (either : ∀ x y s, store' y (store x s) = store x (store' y s)) :
    (Slot.of name d store).Commute (Slot.of name' d' store') := by
  intro v w s r
  change ((d v).map (store · s) >>= fun t => (d' w).map (store' · t)) = .ok r ↔
    ((d' w).map (store' · s) >>= fun t => (d v).map (store · t)) = .ok r
  cases d v with
  | error e => cases d' w <;> exact ⟨nofun, nofun⟩
  | ok x =>
    cases d' w with
    | error e => exact ⟨nofun, nofun⟩
    | ok y =>
      change Except.ok (store' y (store x s)) = .ok r ↔ Except.ok (store x (store' y s)) = .ok r
      rw [either]

/-- A record is read alike from its fields in any order, if its slots fill it in any order. -/
theorem fillFields_perm {slots : List (Slot σ)} (commute : slots.Pairwise Slot.Commute) {fs fs' : Fields}
    (distinct : (Fields.keys fs).Nodup) (permuted : fs.Perm fs') {start r : σ}
    (filled : fillFields slots start fs = .ok r) : fillFields slots start fs' = .ok r := by
  refine foldlM_perm permuted ?_ filled
  refine (List.pairwise_map.mp distinct).imp fun {f f'} other s r => ?_
  dsimp only
  cases found : slots.find? (·.name == f.1) with
  | none => exact Iff.of_eq (congrArg (· = Except.ok r) (bind_pure _).symm)
  | some slot =>
    cases found' : slots.find? (·.name == f'.1) with
    | none => exact Iff.of_eq (congrArg (· = Except.ok r) (bind_pure _))
    | some slot' =>
      have named : slot.name = f.1 := by simpa using List.find?_some found
      have named' : slot'.name = f'.1 := by simpa using List.find?_some found'
      have apart : slot ≠ slot' := fun same => other (named.symm.trans (same ▸ named'))
      exact commute.forall (List.mem_of_find?_eq_some found) (List.mem_of_find?_eq_some found') apart
        f.2 f'.2 s r

end Decoder
end PageSpec
