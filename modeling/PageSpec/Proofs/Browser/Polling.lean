import PageSpec.Proofs.Browser.Touch
/-!
When an expectation is looked at. While one is awaited, the clock goes on by the pauses alone, and a pause is one
step long, or as long as the time that is left if that is less. So the looks fall on the multiples of the step, as
long as there is time, and on the instant when it is up. The first look that holds ends the wait; if none does, what
the last one shows goes into the failure.
-/
namespace PageSpec

namespace Patience
variable {p : Patience}

/-- A look is due at the multiples of the step while there is time, and when the time is up. -/
def Due (p : Patience) (t : Nat) : Prop := (max 1 p.interval ∣ t ∧ t < p.timeout) ∨ t = p.timeout

/-- When the next look is due: after a step, or when the time is up if that comes first. -/
def next (p : Patience) (now : Nat) : Nat := now + min p.step (p.timeout - now)

theorem step_pos (p : Patience) : 0 < p.step := Nat.lt_of_lt_of_le Nat.one_pos (Nat.le_max_left 1 p.interval)

theorem lt_next {now : Nat} (early : now < p.timeout) : now < p.next now := by
  have := p.step_pos
  unfold next
  omega

theorem next_le {now : Nat} (early : now < p.timeout) : p.next now ≤ p.timeout := by
  unfold next
  omega

theorem Due.le {t : Nat} (due : p.Due t) : t ≤ p.timeout := by
  rcases due with ⟨-, early⟩ | rfl
  · exact Nat.le_of_lt early
  · exact Nat.le_refl _

theorem Due.step_dvd {t : Nat} (due : p.Due t) (early : t < p.timeout) : p.step ∣ t := by
  rcases due with ⟨multiple, -⟩ | rfl
  · exact multiple
  · exact absurd early (Nat.lt_irrefl _)

theorem due_zero (p : Patience) : p.Due 0 := by
  rcases Nat.eq_zero_or_pos p.timeout with up | early
  · exact .inr up.symm
  · exact .inl ⟨Nat.dvd_zero _, early⟩

theorem Due.next {now : Nat} (due : p.Due now) (early : now < p.timeout) : p.Due (p.next now) := by
  rcases Nat.lt_or_eq_of_le (next_le early) with short | up
  · have whole : p.next now = now + p.step := by
      unfold Patience.next at short ⊢
      omega
    refine .inl ⟨?_, short⟩
    rw [whole]
    exact Nat.dvd_add (due.step_dvd early) (Nat.dvd_refl _)
  · exact .inr up

/-- Nothing is due between one look and the next. -/
theorem Due.lt_next_iff {now t : Nat} (due : p.Due now) (early : now < p.timeout) (due' : p.Due t) :
    t < p.next now ↔ t ≤ now := by
  refine ⟨fun before => ?_, fun reached => Nat.lt_of_le_of_lt reached (lt_next early)⟩
  refine Nat.le_of_not_lt fun later => ?_
  have apart : p.step ≤ t - now := by
    refine Nat.le_of_dvd (by omega) (Nat.dvd_sub ?_ (due.step_dvd early))
    exact due'.step_dvd (Nat.lt_of_lt_of_le before (next_le early))
  unfold Patience.next at before
  omega

/-! ## Instants by their numbers -/

theorem instant_lt_iff (p : Patience) (k : Nat) : p.instant k < p.timeout ↔ k < p.pauses := by
  have positive := p.step_pos
  have counted : k < p.pauses ↔ (k + 1) * p.step ≤ p.timeout + p.step - 1 := Nat.le_div_iff_mul_le positive
  rw [counted, Nat.succ_mul]
  unfold instant
  omega

theorem next_instant (p : Patience) {k : Nat} (early : p.instant k < p.timeout) :
    p.next (p.instant k) = p.instant (k + 1) := by
  unfold next instant at *
  rw [Nat.succ_mul]
  omega

end Patience

/-! ## Waiting by the clock -/

section
variable {σ : Type}

/-- Looks until one look holds or the time is up. The clock, which shows how much time has passed, stands still
during a look, and a pause moves it on by its length. -/
def pollByClock (p : Patience) (probe : Nat → Act σ Sight) (unmet : String → Failure) (now : Nat) :
    Act σ Unit := do
  match ← look probe now with
  | .met => return
  | .unmet seen =>
    if p.timeout ≤ now then throw (unmet seen)
    else pollByClock p probe unmet (now + min p.step (p.timeout - now))
termination_by p.timeout - now
decreasing_by
  have := p.step_pos
  omega

/-- The pauses that are counted beforehand are those that the clock allows. -/
theorem pollFrom_by_clock (p : Patience) (probe : Nat → Act σ Sight) (unmet : String → Failure) {k n : Nat}
    (left : k + n = p.pauses) : pollFrom p probe unmet k n = pollByClock p probe unmet (p.instant k) := by
  have early := p.instant_lt_iff k
  induction n generalizing k with
  | zero =>
    rw [pollFrom, pollByClock]
    congr 1
    funext sight
    cases sight with
    | met => rfl
    | unmet seen =>
      dsimp only
      rw [if_pos (by omega)]
  | succ n ih =>
    rw [pollFrom, pollByClock]
    congr 1
    funext sight
    cases sight with
    | met => rfl
    | unmet seen =>
      dsimp only
      rw [if_neg (by omega), ih (by omega) (p.instant_lt_iff (k + 1))]
      congr 1
      exact (p.next_instant (by omega)).symm

theorem poll_by_clock (p : Patience) (what : Expectation) (probe : Nat → Act σ Sight) : poll p what probe =
    pollByClock p probe (fun seen => .assertion (.expected what p.timeout seen)) 0 := by
  have start : p.instant 0 = 0 := by
    unfold Patience.instant
    omega
  rw [poll, pollFrom_by_clock p probe _ (Nat.zero_add _), start]

end

/-! ## What becomes of a wait -/

/-- A look that notes its instant. What comes of it depends on the time alone. -/
def noting (outcome : Nat → Except Failure Sight) (t : Nat) : Act (List Nat) Sight :=
  fun looks => (outcome t, looks ++ [t])

/-- A wait goes as its looks say. The looks are taken in order, at the instants at which they are due, up to the first
one that holds; if none holds, all are taken, and the failure tells what there was to see when the time was up. -/
inductive Decided (p : Patience) (what : Expectation) (outcome : Nat → Except Failure Sight) :
    Except Failure Unit × List Nat → Prop
  | met {t : Nat} {looks : List Nat} (due : p.Due t) (holds : outcome t = .ok .met)
    (first : ∀ s, p.Due s → s < t → outcome s ≠ .ok .met) (ordered : looks.Pairwise (· < ·))
    (taken : ∀ s, s ∈ looks ↔ p.Due s ∧ s ≤ t) : Decided p what outcome (.ok (), looks)
  | expired {seen : String} {looks : List Nat} (never : ∀ s, p.Due s → outcome s ≠ .ok .met)
    (last : shown (outcome p.timeout) = .unmet seen) (ordered : looks.Pairwise (· < ·))
    (taken : ∀ s, s ∈ looks ↔ p.Due s) :
    Decided p what outcome (.error (.assertion (.expected what p.timeout seen)), looks)

/-- Up to now, every look that was due has been taken in order, and none has held. -/
structure Waiting (p : Patience) (outcome : Nat → Except Failure Sight) (now : Nat) (looks : List Nat) : Prop where
  due : p.Due now
  ordered : looks.Pairwise (· < ·)
  taken : ∀ s, s ∈ looks ↔ p.Due s ∧ s < now
  unmet : ∀ s, p.Due s → s < now → outcome s ≠ .ok .met

section
variable {p : Patience} {what : Expectation} {outcome : Nat → Except Failure Sight} {now : Nat} {looks : List Nat}

theorem look_noting (outcome : Nat → Except Failure Sight) (t : Nat) (looks : List Nat) :
    look (noting outcome) t looks = (.ok (shown (outcome t)), looks ++ [t]) := look_apply _ _ _

theorem Waiting.start (p : Patience) (outcome : Nat → Except Failure Sight) : Waiting p outcome 0 [] where
  due := p.due_zero
  ordered := .nil
  taken := by simp
  unmet := by simp

theorem Waiting.ordered_now (waiting : Waiting p outcome now looks) : (looks ++ [now]).Pairwise (· < ·) := by
  refine List.pairwise_append.mpr ⟨waiting.ordered, List.pairwise_singleton _ _, fun s member t same => ?_⟩
  rw [List.mem_singleton.mp same]
  exact ((waiting.taken s).mp member).2

theorem Waiting.taken_now (waiting : Waiting p outcome now looks) (s : Nat) :
    s ∈ looks ++ [now] ↔ p.Due s ∧ s ≤ now := by
  rw [List.mem_append, List.mem_singleton, waiting.taken, Nat.le_iff_lt_or_eq]
  constructor
  · rintro (⟨due, before⟩ | rfl)
    · exact ⟨due, .inl before⟩
    · exact ⟨waiting.due, .inr rfl⟩
  · rintro ⟨due, before | same⟩
    · exact .inl ⟨due, before⟩
    · exact .inr same

theorem Waiting.unmet_now (waiting : Waiting p outcome now looks) (fails : outcome now ≠ .ok .met) {s : Nat}
    (due : p.Due s) (reached : s ≤ now) : outcome s ≠ .ok .met := by
  rcases Nat.lt_or_eq_of_le reached with before | rfl
  · exact waiting.unmet s due before
  · exact fails

/-- A look that fails in time is followed by a pause. -/
theorem Waiting.pause (waiting : Waiting p outcome now looks) (fails : outcome now ≠ .ok .met)
    (early : now < p.timeout) : Waiting p outcome (p.next now) (looks ++ [now]) where
  due := waiting.due.next early
  ordered := waiting.ordered_now
  taken s := by
    rw [waiting.taken_now]
    exact and_congr_right fun due => (waiting.due.lt_next_iff early due).symm
  unmet s due before := waiting.unmet_now fails due ((waiting.due.lt_next_iff early due).mp before)

theorem Waiting.met (waiting : Waiting p outcome now looks) (holds : outcome now = .ok .met) :
    Decided p what outcome (.ok (), looks ++ [now]) :=
  .met waiting.due holds waiting.unmet waiting.ordered_now waiting.taken_now

theorem Waiting.expired (waiting : Waiting p outcome now looks) (up : p.timeout ≤ now) {seen : String}
    (fails : shown (outcome now) = .unmet seen) :
    Decided p what outcome (.error (.assertion (.expected what p.timeout seen)), looks ++ [now]) := by
  obtain rfl : now = p.timeout := Nat.le_antisymm waiting.due.le up
  have unmet : outcome p.timeout ≠ .ok .met := by
    rw [Ne, ← shown_eq_met, fails]
    nofun
  refine .expired (fun s due => waiting.unmet_now unmet due due.le) fails waiting.ordered_now fun s => ?_
  rw [waiting.taken_now]
  exact and_iff_left_of_imp Patience.Due.le

theorem pollByClock_decided {now : Nat} {looks : List Nat} (waiting : Waiting p outcome now looks) :
    Decided p what outcome
      (pollByClock p (noting outcome) (fun seen => .assertion (.expected what p.timeout seen)) now looks) := by
  rw [pollByClock, Act.bind_ok (look_noting outcome now looks)]
  cases sight : shown (outcome now) with
  | met => exact waiting.met (shown_eq_met.mp sight)
  | unmet seen =>
    by_cases up : p.timeout ≤ now
    · dsimp only
      rw [if_pos up]
      exact waiting.expired up sight
    · have fails : outcome now ≠ .ok .met := by
        rw [Ne, ← shown_eq_met, sight]
        nofun
      have early : now < p.timeout := Nat.lt_of_not_le up
      dsimp only
      rw [if_neg up]
      exact pollByClock_decided (waiting.pause fails early)
termination_by p.timeout - now
decreasing_by exact Nat.sub_lt_sub_left early (Patience.lt_next early)

end

/-- Awaiting goes by the clock, and what becomes of it is decided by the looks. -/
theorem poll_decides (p : Patience) (what : Expectation) :
    (∀ (σ : Type) (probe : Nat → Act σ Sight), poll p what probe =
      pollByClock p probe (fun seen => .assertion (.expected what p.timeout seen)) 0) ∧
    ∀ outcome : Nat → Except Failure Sight, Decided p what outcome (poll p what (noting outcome) []) := by
  refine ⟨fun σ probe => poll_by_clock p what probe, fun outcome => ?_⟩
  rw [poll_by_clock]
  exact pollByClock_decided (.start p outcome)

/-- The last pause is cut short. -/
example : (poll ⟨25, 10⟩ (.url "") (noting fun _ => .ok (.unmet "")) []).2 = [0, 10, 20, 25] := by decide +kernel

end PageSpec
