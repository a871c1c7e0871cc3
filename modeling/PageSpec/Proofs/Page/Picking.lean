import PageSpec.Proofs.Page.Locating
/-!
Which match of a target is meant. Hints ask for a place among the matches; locating the target gives a
locator for exactly the element there. Where there is none it fails in one way, whether nothing matches,
the place is out of range or the target is no selector.
-/
namespace PageSpec

namespace HintView
variable {v : HintView} {count j k : Nat} {n : Int}

/-- A position together with `first` or `last`. -/
def Mixed (v : HintView) : Prop := v.nth.isSome ∧ (v.first ∨ v.last)

instance : Decidable v.Mixed := inferInstanceAs (Decidable (v.nth.isSome = true ∧ (v.first = true ∨ v.last = true)))

/-- The hints ask for a place among some matches: a position counts from 0, or from their end if it is
negative; without one `last` means the last match, and otherwise the first is meant. -/
inductive Asks (v : HintView) (count k : Nat) : Prop
  | first (unplaced : v.nth = none) (plain : v.last = false) (start : k = 0)
  | last (unplaced : v.nth = none) (asked : v.last = true) (final : k + 1 = count)
  | forward {n : Int} (asked : v.nth = some n) (counted : n = k)
  | backward {n : Int} (asked : v.nth = some n) (negative : n < 0) (counted : n + count = k)

theorem asks_first (unplaced : v.nth = none) (plain : v.last = false) : v.Asks count k ↔ k = 0 := by
  refine ⟨fun place => ?_, .first unplaced plain⟩
  cases place with
  | first _ _ start => exact start
  | last _ asked => exact nomatch plain.symm.trans asked
  | forward asked => exact nomatch unplaced.symm.trans asked
  | backward asked => exact nomatch unplaced.symm.trans asked

theorem asks_last (unplaced : v.nth = none) (asked : v.last = true) : v.Asks count k ↔ k + 1 = count := by
  refine ⟨fun place => ?_, .last unplaced asked⟩
  cases place with
  | first _ plain => exact nomatch plain.symm.trans asked
  | last _ _ final => exact final
  | forward asked => exact nomatch unplaced.symm.trans asked
  | backward asked => exact nomatch unplaced.symm.trans asked

theorem asks_nth (asked : v.nth = some n) : v.Asks count k ↔ n = k ∨ (n < 0 ∧ n + count = k) := by
  constructor
  · intro place
    cases place with
    | first unplaced => exact nomatch unplaced.symm.trans asked
    | last unplaced => exact nomatch unplaced.symm.trans asked
    | forward asked' counted => cases asked.symm.trans asked'; exact .inl counted
    | backward asked' negative counted => cases asked.symm.trans asked'; exact .inr ⟨negative, counted⟩
  · rintro (counted | ⟨negative, counted⟩)
    · exact .forward asked counted
    · exact .backward asked negative counted

/-- Hints ask for one place at most. -/
theorem Asks.unique (one : v.Asks count j) (other : v.Asks count k) : j = k := by
  cases asked : v.nth with
  | some n =>
    rw [asks_nth asked] at one other
    omega
  | none =>
    cases last : v.last with
    | true =>
      rw [asks_last asked last] at one other
      omega
    | false =>
      rw [asks_first asked last] at one other
      omega

theorem pick_mixed (mixed : v.Mixed) : v.pick = .error .invalidIndex := by
  obtain ⟨placed, both⟩ := mixed
  obtain ⟨n, asked⟩ := Option.isSome_iff_exists.mp placed
  unfold pick
  rw [asked]
  exact if_pos (by simpa using both)

/-- Hints that are not mixed pick by the position, or else the last or the first match. -/
theorem pick_single (single : ¬ v.Mixed) :
    (v.nth = none ∧ v.last = false ∧ v.pick = .ok .first) ∨ (v.nth = none ∧ v.last = true ∧ v.pick = .ok .last) ∨
      ∃ n, v.nth = some n ∧ v.pick = .ok (.nth n) := by
  unfold pick
  cases asked : v.nth with
  | none => cases last : v.last <;> simp
  | some n =>
    have free : ¬ (v.first ∨ v.last) := fun both => single ⟨by rw [asked]; rfl, both⟩
    exact .inr (.inr ⟨n, rfl, if_neg (by simpa using free)⟩)

end HintView

namespace Page
variable {f : Forest} {scope l : Locator} {raw : String} {hints : HintView} {ms : List Nat} {i : Nat}

/-- The matches of a written target; where it is no selector there are none. -/
def matchesOf (f : Forest) (scope : Locator) (raw : String) : List Nat :=
  (resolve f (scope.allOf raw)).toOption.getD []

theorem nth_eq_toList (ms : List Nat) (n : Int) : ∃ o : Option Nat, nth ms n = o.toList ∧
    ∀ i, o = some i ↔ ∃ k : Nat, (n = k ∨ (n < 0 ∧ n + ms.length = k)) ∧ ms[k]? = some i := by
  by_cases negative : n < 0
  · by_cases inside : 0 ≤ ms.length + n
    · refine ⟨ms[(ms.length + n).toNat]?, by simp only [nth, if_pos negative, if_pos inside], fun i => ?_⟩
      constructor
      · intro there
        exact ⟨_, .inr ⟨negative, by omega⟩, there⟩
      · rintro ⟨k, place, there⟩
        have same : (ms.length + n).toNat = k := by omega
        rwa [same]
    · refine ⟨none, by simp only [nth, if_pos negative, if_neg inside]; rfl, fun i => ?_⟩
      constructor
      · intro there
        cases there
      · rintro ⟨k, place, _⟩
        omega
  · have inside : 0 ≤ n := by omega
    refine ⟨ms[n.toNat]?, by simp only [nth, if_neg negative, if_pos inside], fun i => ?_⟩
    constructor
    · intro there
      exact ⟨_, .inl (by omega), there⟩
    · rintro ⟨k, place, there⟩
      have same : n.toNat = k := by omega
      rwa [same]

/-- The picked matches are the one at the place that the hints ask for, if it is there. -/
theorem resolve_asked (single : ¬ hints.Mixed) : ∃ pick, hints.pick = .ok pick ∧
    ∀ {f l ms}, resolve f l = .ok ms → ∃ o : Option Nat, resolve f (l.pick pick) = .ok o.toList ∧
      ∀ i, o = some i ↔ ∃ k, hints.Asks ms.length k ∧ ms[k]? = some i := by
  rcases hints.pick_single single with ⟨unplaced, plain, picked⟩ | ⟨unplaced, asked, picked⟩ | ⟨n, asked, picked⟩
  · refine ⟨.first, picked, fun {f l ms} found => ⟨ms.head?, ?_, fun i => ?_⟩⟩
    · rw [resolve_pick found, List.take_one]
    · simp only [HintView.asks_first unplaced plain, exists_eq_left, List.head?_eq_getElem?]
  · refine ⟨.last, picked, fun {f l ms} found => ⟨ms.getLast?, resolve_pick found .last, fun i => ?_⟩⟩
    simp only [HintView.asks_last unplaced asked, List.getLast?_eq_getElem?]
    constructor
    · intro there
      have bound := (List.getElem?_eq_some_iff.mp there).1
      exact ⟨_, by omega, there⟩
    · rintro ⟨k, final, there⟩
      rwa [show ms.length - 1 = k by omega]
  · refine ⟨.nth n, picked, fun {f l ms} found => ?_⟩
    obtain ⟨o, same, place⟩ := nth_eq_toList ms n
    refine ⟨o, (resolve_nth found n).trans (congrArg Except.ok same), fun i => ?_⟩
    simp only [HintView.asks_nth asked, place]

/-- Unless the hints are mixed, a target is located at the place they ask for or not found. -/
theorem locate_single (p : Page) (single : ¬ hints.Mixed) :
    (∃ l k i, locate scope raw hints p = (.ok l, p) ∧ hints.Asks (matchesOf p.forest scope raw).length k ∧
      (matchesOf p.forest scope raw)[k]? = some i ∧ resolve p.forest l = .ok [i]) ∨
    (locate scope raw hints p = (.error (.notFound .target raw hints.describe), p) ∧
      ∀ k, hints.Asks (matchesOf p.forest scope raw).length k → (matchesOf p.forest scope raw)[k]? = none) := by
  obtain ⟨pick, picked, place⟩ := resolve_asked single
  unfold matchesOf
  cases found : resolve p.forest (scope.allOf raw) with
  | error e =>
    obtain ⟨e', lost⟩ := resolve_pick_lost found pick
    exact .inr ⟨locate_lost picked lost, fun _ _ => rfl⟩
  | ok ms =>
    obtain ⟨o, narrowed, there⟩ := place found
    have located := locate_picked picked narrowed
    cases o with
    | none =>
      rw [Option.toList_none, if_pos rfl] at located
      refine .inr ⟨located, fun k asked => ?_⟩
      refine Option.eq_none_iff_forall_ne_some.mpr fun i here => ?_
      cases (there i).mpr ⟨k, asked, here⟩
    | some i =>
      rw [Option.toList_some, if_neg (List.cons_ne_nil i [])] at located
      obtain ⟨k, asked, here⟩ := (there i).mp rfl
      exact .inl ⟨_, k, i, located, asked, here, narrowed⟩

/-- Locating a target is exact. It is refused exactly if the hints are mixed; otherwise it succeeds
exactly if the place they ask for is there, with a locator for the one element at this place, and in any
other case the target is not found. The page stays as it is. -/
theorem locate_exact (p : Page) (scope : Locator) (raw : String) (hints : HintView) :
    (locate scope raw hints p).2 = p ∧
    ((locate scope raw hints p).1 = .error .invalidIndex ↔ hints.Mixed) ∧
    (¬ hints.Mixed → ((∃ l, (locate scope raw hints p).1 = .ok l) ↔
      ∃ k < (matchesOf p.forest scope raw).length, hints.Asks (matchesOf p.forest scope raw).length k)) ∧
    (∀ l, (locate scope raw hints p).1 = .ok l →
      ∃ k i, (∀ j, hints.Asks (matchesOf p.forest scope raw).length j ↔ j = k) ∧
        (matchesOf p.forest scope raw)[k]? = some i ∧ resolve p.forest l = .ok [i]) ∧
    (∀ e, (locate scope raw hints p).1 = .error e → ¬ hints.Mixed → e = .notFound .target raw hints.describe) := by
  by_cases mixed : hints.Mixed
  · rw [locate_refused (HintView.pick_mixed mixed)]
    exact ⟨rfl, ⟨fun _ => mixed, fun _ => rfl⟩, fun single => absurd mixed single, nofun,
      fun _ _ single => absurd mixed single⟩
  · rcases locate_single p mixed with ⟨l, k, i, located, asked, here, stands⟩ | ⟨lost, nowhere⟩
    · rw [located]
      refine ⟨rfl, ⟨nofun, fun mixed' => absurd mixed' mixed⟩, fun _ => ?_, ?_, ?_⟩
      · have bound := (List.getElem?_eq_some_iff.mp here).1
        exact ⟨fun _ => ⟨k, bound, asked⟩, fun _ => ⟨l, rfl⟩⟩
      · rintro _ ⟨⟩
        exact ⟨k, i, fun j => ⟨fun asked' => asked'.unique asked, fun same => same ▸ asked⟩, here, stands⟩
      · intro e failed
        cases failed
    · rw [lost]
      refine ⟨rfl, ⟨nofun, fun mixed' => absurd mixed' mixed⟩, fun _ => ⟨?_, ?_⟩, nofun, ?_⟩
      · rintro ⟨l, done⟩
        cases done
      · rintro ⟨k, bound, asked⟩
        exact absurd bound (Nat.not_lt.mpr (List.getElem?_eq_none_iff.mp (nowhere k asked)))
      · rintro _ ⟨⟩ _
        rfl

end Page
end PageSpec
