import PageSpec.Dynamic.Generator
import PageSpec.Proofs.Decimal.Nearest
import PageSpec.Proofs.Dynamic.Draws
/-!
Whole numbers within bounds. Bounds travel through doubles, in order and back to 64 bits, so that the range that is
drawn from is never empty, but runs from what the lower bound is rounded to up to what the upper bound is rounded to.
The numbers stay within the bounds exactly if neither is rounded out of the range between them.
-/
namespace PageSpec.Dynamic
open Binary64 (ofInt)
variable {args : List Json} {a b n : Int}

/-! ## The range -/

theorem integer_made {low high : Int} (range : Generator.range args = (low, high)) (now : Moment) (d : Dice) :
    (Generator.integer args now d).1 = .value (.int (Draw.between low high d).1) := by
  unfold Generator.integer
  rw [range]
  rfl

/-- All that a whole number takes is one number from a range of 64 bits that is not empty. -/
def AsksRange (args : List Json) : Prop :=
  ∃ low high, leastInt64 ≤ low ∧ low ≤ high ∧ high ≤ greatestInt64 ∧
    ∀ now, Generator.integer args now = (fun v => .value (.int v)) <$> Draw.between low high

/-- Whatever the arguments are, an empty range is never asked for. -/
theorem integer_asks (args : List Json) : AsksRange args := by
  refine ⟨(Generator.range args).1, (Generator.range args).2, ?_, ?_, ?_, fun now => rfl⟩
  · exact (Binary64.round64_mem _).2.1
  · exact le_max_right _ _
  · exact max_le (Binary64.round64_mem _).1.2 (Binary64.round64_mem _).2.2

/-! ## Given bounds -/

/-- The first argument gives two whole numbers of 64 bits as bounds, in either order. -/
structure GivesBounds (args : List Json) (a b : Int) : Prop where
  named : ∃ fs rest, args = .obj fs :: rest ∧ Fields.get? fs "min" = some (.int a) ∧
    Fields.get? fs "max" = some (.int b)
  first : leastInt64 ≤ a ∧ a ≤ greatestInt64
  second : leastInt64 ≤ b ∧ b ≤ greatestInt64

/-- Bounds of whole numbers are respected. -/
structure RespectsBounds (args : List Json) (a b : Int) : Prop where
  /-- At any time and from every state of the random source a number between the bounds is made. -/
  within : ∀ now d, ∃ v, (Generator.integer args now d).1 = .value (.int v) ∧ min a b ≤ v ∧ v ≤ max a b
  asks : AsksRange args

/-- Neither of two bounds is rounded out of the range between them. The greatest number of 64 bits may be: it is cut off
there again. -/
structure RoundedInside (a b : Int) : Prop where
  lower : ((min a b : Int) : ℚ) ≤ (ofInt (min a b)).value
  upper : (ofInt (max a b)).value ≤ (max a b : Int) ∨ max a b = greatestInt64

/-- The bounds are put in order after they have been rounded, which changes nothing: rounding keeps their order. -/
theorem bounds_ofInt (given : GivesBounds args a b) (high : Binary64) :
    Generator.bounds args high = (ofInt (min a b), ofInt (max a b)) := by
  obtain ⟨fs, rest, rfl, first, second⟩ := given.named
  unfold Generator.bounds
  simp only [first, second, Option.bind_some, Json.double?, Option.getD_some]
  rcases le_total a b with le | ge
  · rw [if_pos (Binary64.atMost_ofInt le), min_eq_left le, max_eq_right le]
  · rw [min_eq_right ge, max_eq_left ge]
    split_ifs with le
    · rw [Binary64.ofInt_eq_of_atMost le (Binary64.atMost_ofInt ge)]
    · rfl

theorem near_int64 (least : leastInt64 ≤ n) (greatest : n ≤ greatestInt64) : n.natAbs.log2 ≤ 1022 := by
  have wide : twoTo 63 = 9223372036854775808 := rfl
  unfold leastInt64 at least
  unfold greatestInt64 at greatest
  exact Binary64.near_of_le (by omega)

/-- A bound of 64 bits is rounded to a whole number, and of that only the upper end is cut off. -/
theorem rounded_int64 (least : leastInt64 ≤ n) (greatest : n ≤ greatestInt64) :
    ∃ k : Int, (ofInt n).value = k ∧ leastInt64 ≤ k ∧ (ofInt n).floor64 = min greatestInt64 k ∧
      (ofInt n).ceil64 = min greatestInt64 k := by
  have near := near_int64 least greatest
  obtain ⟨k, same⟩ : ∃ k : Int, (ofInt n).value = k := ⟨_, Binary64.value_ofInt near⟩
  have end_ : (ofInt leastInt64).value = leastInt64 := by
    rw [Binary64.value_ofInt (near_int64 le_rfl (by decide))]
    congr 1
  have above : leastInt64 ≤ k := by
    have mono := Binary64.value_mono least (near_int64 le_rfl (by decide)) near
    rw [end_, same] at mono
    exact Int.cast_le.mp mono
  have cut : max leastInt64 (min greatestInt64 k) = min greatestInt64 k := max_eq_right (le_min (by decide) above)
  refine ⟨k, same, above, ?_, ?_⟩
  · rw [Binary64.floor64_eq (Binary64.finite_ofInt near), same, Int.floor_intCast, cut]
  · rw [Binary64.ceil64_eq (Binary64.finite_ofInt near), same, Int.ceil_intCast, cut]

/-- The range runs from one rounded bound to the other. -/
theorem range_ofInt (given : GivesBounds args a b) : ∃ k m : Int,
    (ofInt (min a b)).value = k ∧ (ofInt (max a b)).value = m ∧ leastInt64 ≤ k ∧ k ≤ m ∧
      Generator.range args = (min greatestInt64 k, min greatestInt64 m) := by
  have least : leastInt64 ≤ min a b := le_min given.first.1 given.second.1
  have greatest : max a b ≤ greatestInt64 := max_le given.first.2 given.second.2
  have order : min a b ≤ max a b := min_le_max
  obtain ⟨k, lower, above, -, ceil⟩ := rounded_int64 least (order.trans greatest)
  obtain ⟨m, upper, -, floor, -⟩ := rounded_int64 (least.trans order) greatest
  have rounded : k ≤ m := by
    have mono := Binary64.value_mono order (near_int64 least (order.trans greatest))
      (near_int64 (least.trans order) greatest)
    rw [lower, upper] at mono
    exact Int.cast_le.mp mono
  refine ⟨k, m, lower, upper, above, rounded, ?_⟩
  unfold Generator.range
  rw [bounds_ofInt given]
  simp only [ceil, floor]
  rw [max_eq_left (min_le_min_left _ rounded)]

/-- The bounds are respected exactly if neither is rounded out of the range between them. -/
theorem respectsBounds_iff (given : GivesBounds args a b) : RespectsBounds args a b ↔ RoundedInside a b := by
  have greatest : max a b ≤ greatestInt64 := max_le given.first.2 given.second.2
  obtain ⟨k, m, lower, upper, above, rounded, range⟩ := range_ofInt given
  have ordered : min greatestInt64 k ≤ min greatestInt64 m := min_le_min_left _ rounded
  have low : leastInt64 ≤ min greatestInt64 k := le_min (by decide) above
  have inside_iff : RoundedInside a b ↔ min a b ≤ k ∧ (m ≤ max a b ∨ max a b = greatestInt64) := by
    rw [← Int.cast_le (R := ℚ), ← Int.cast_le (R := ℚ), ← lower, ← upper]
    exact ⟨fun inside => ⟨inside.lower, inside.upper⟩, fun inside => ⟨inside.1, inside.2⟩⟩
  rw [inside_iff]
  constructor
  · intro respects
    -- Both ends of the range are drawn, so both lie within the bounds.
    have drawn {v : Int} (after : min greatestInt64 k ≤ v) (before : v ≤ min greatestInt64 m) :
        min a b ≤ v ∧ v ≤ max a b := by
      obtain ⟨d, drawn⟩ := Draw.between_reaches low after before (min_le_left _ _)
      obtain ⟨w, same, inside⟩ := respects.within default d
      rw [integer_made range, drawn] at same
      cases same
      exact inside
    refine ⟨(drawn le_rfl ordered).1.trans (min_le_right _ _), ?_⟩
    rcases min_le_iff.mp (drawn ordered le_rfl).2 with top | inside
    · exact .inr (le_antisymm greatest top)
    · exact .inl inside
  · rintro ⟨inside, outside⟩
    refine ⟨fun now d => ⟨_, integer_made range now d, ?_⟩, integer_asks args⟩
    obtain ⟨after, before⟩ := Draw.between_mem low ordered (min_le_left _ _) d
    refine ⟨(le_min (min_le_max.trans greatest) inside).trans after, before.trans ?_⟩
    rcases outside with below | top
    · exact (min_le_right _ _).trans below
    · exact (min_le_left _ _).trans top.ge

/-- Up to `2 ^ 53` a bound is not rounded at all. -/
theorem roundedInside_of_exact (left : a.natAbs ≤ twoTo 53) (right : b.natAbs ≤ twoTo 53) : RoundedInside a b := by
  have lower : (min a b).natAbs ≤ twoTo 53 := by
    rcases min_choice a b with same | same <;> rwa [same]
  have upper : (max a b).natAbs ≤ twoTo 53 := by
    rcases max_choice a b with same | same <;> rwa [same]
  exact ⟨(Binary64.value_ofInt_exact lower).ge, .inl (Binary64.value_ofInt_exact upper).le⟩

theorem swapped_respected : GivesBounds [.obj [("min", .int 7), ("max", .int 5)]] 7 5 ∧
    RespectsBounds [.obj [("min", .int 7), ("max", .int 5)]] 7 5 := by
  have given : GivesBounds [.obj [("min", .int 7), ("max", .int 5)]] 7 5 :=
    ⟨⟨_, [], rfl, rfl, rfl⟩, by decide, by decide⟩
  exact ⟨given, (respectsBounds_iff given).mpr (roundedInside_of_exact (by decide) (by decide))⟩

theorem odd_rounded_out : ¬ RespectsBounds
    [.obj [("min", .int 9007199254740993), ("max", .int 9007199254740993)]] 9007199254740993 9007199254740993 := by
  intro respects
  obtain ⟨v, made, after, -⟩ := respects.within default default
  have range : Generator.range [.obj [("min", .int 9007199254740993), ("max", .int 9007199254740993)]] =
      (9007199254740992, 9007199254740992) := by decide +kernel
  have drawn := (Draw.between_mem (by decide) (le_refl 9007199254740992) (by decide) default).2
  rw [integer_made range] at made
  have same := Json.int.inj (Made.value.inj made)
  rw [same] at drawn
  exact absurd (after.trans drawn) (by decide)

end PageSpec.Dynamic
