import Mathlib.Data.List.Induction
import PageSpec.Network.Route
/-!
Histories of the interception rules. Rules are registered, and withdrawn by the source they were
registered with; the same source may come and go any number of times. A table is compared here with the
history that led to it: it holds the rules that no later withdrawal concerns, and of those that admit a
URL the one registered last decides.
-/
namespace PageSpec.Network

/-- One change of the rules. -/
inductive Revision where
  | add (rule : Rule)
  | remove (source : String)
  deriving DecidableEq, Repr

namespace RouteTable

def revise (t : RouteTable) : Revision → RouteTable
  | .add rule => t.add rule
  | .remove source => (t.remove source).1

/-- The table that a history leads to, oldest change first. -/
def after (h : List Revision) : RouteTable := h.foldl revise empty

/-- The rules of a history that no later withdrawal concerns, oldest first. -/
def live : List Revision → List Rule
  | [] => []
  | .add rule :: later => if .remove rule.source ∈ later then live later else rule :: live later
  | .remove _ :: later => live later

/-- A rule decides about a URL: it was registered and not withdrawn since, it admits the URL, and no live
rule registered after it does. -/
inductive Decides (url : String) (rule : Rule) : List Revision → Prop
  | intro (earlier later : List Revision) (stays : .remove rule.source ∉ later)
    (admits : rule.pattern.admits url = true)
    (last : ∀ other ∈ live later, other.pattern.admits url = false) :
    Decides url rule (earlier ++ .add rule :: later)

/-! ## Live rules -/

theorem live_append (earlier later : List Revision) :
    live (earlier ++ later) =
      (live earlier).filter (fun rule => .remove rule.source ∉ later) ++ live later := by
  induction earlier with
  | nil => rfl
  | cons c earlier ih =>
    cases c with
    | remove source => exact ih
    | add rule =>
      rw [List.cons_append, live, live, ih]
      by_cases soon : .remove rule.source ∈ earlier
      · rw [if_pos soon, if_pos (List.mem_append_left later soon)]
      · by_cases late : .remove rule.source ∈ later
        · rw [if_neg soon, if_pos (List.mem_append_right earlier late), List.filter_cons_of_neg (by simpa)]
        · rw [if_neg soon, if_neg (by simp [soon, late]), List.filter_cons_of_pos (by simpa)]
          rfl

theorem live_add (h : List Revision) (rule : Rule) : live (h ++ [.add rule]) = live h ++ [rule] := by
  rw [live_append]
  simp [live]

/-- A withdrawal takes the rules of its source out and leaves the others in their order. -/
theorem live_remove (h : List Revision) (source : String) :
    live (h ++ [.remove source]) = (live h).filter (·.source ≠ source) := by
  rw [live_append]
  simp [live]

/-- What is live after a rule was registered since. -/
theorem split_of_live {rule : Rule} {front back : List Rule} :
    ∀ {h : List Revision}, live h = front ++ rule :: back →
      ∃ earlier later, h = earlier ++ .add rule :: later ∧ .remove rule.source ∉ later ∧ live later = back
  | [], same => by simp [live] at same
  | .remove source :: h, same => by
    obtain ⟨earlier, later, rfl, stays, rest⟩ := split_of_live (h := h) same
    exact ⟨.remove source :: earlier, later, rfl, stays, rest⟩
  | .add other :: h, same => by
    rw [live] at same
    split at same
    · obtain ⟨earlier, later, rfl, stays, rest⟩ := split_of_live same
      exact ⟨.add other :: earlier, later, rfl, stays, rest⟩
    · rename_i stays
      cases front with
      | nil =>
        obtain ⟨rfl, rest⟩ := List.cons.inj same
        exact ⟨[], h, rfl, stays, rest⟩
      | cons _ front =>
        obtain ⟨earlier, later, rfl, stays, rest⟩ := split_of_live (List.cons.inj same).2
        exact ⟨.add other :: earlier, later, rfl, stays, rest⟩

/-! ## Tables -/

theorem after_snoc (h : List Revision) (c : Revision) : after (h ++ [c]) = (after h).revise c := by
  rw [after, List.foldl_append]
  rfl

/-- A table holds the live rules of its history. -/
theorem after_rules (h : List Revision) : (after h).rules = live h := by
  induction h using List.reverseRecOn with
  | nil => rfl
  | append_singleton h c ih =>
    rw [after_snoc]
    cases c with
    | add rule => rw [live_add, ← ih]; rfl
    | remove source => rw [live_remove, ← ih]; rfl

theorem find?_eq_some_iff {h : List Revision} {url : String} {rule : Rule} :
    (after h).find? url = some rule ↔ Decides url rule h := by
  rw [find?, after_rules, List.find?_eq_some_iff_append]
  constructor
  · rintro ⟨admits, newer, older, same, last⟩
    have split : live h = older.reverse ++ rule :: newer.reverse := by
      rw [← List.reverse_reverse (live h), same]
      simp
    obtain ⟨earlier, later, rfl, stays, rest⟩ := split_of_live split
    refine .intro earlier later stays admits fun other member => ?_
    rw [rest, List.mem_reverse] at member
    simpa using last other member
  · rintro ⟨earlier, later, stays, admits, last⟩
    obtain ⟨front, split⟩ : ∃ front, live (earlier ++ .add rule :: later) = front ++ rule :: live later :=
      ⟨_, by rw [live_append, live, if_neg stays]⟩
    refine ⟨admits, (live later).reverse, front.reverse, ?_, fun other member => ?_⟩
    · rw [split]
      simp
    · simpa using last other (List.mem_reverse.mp member)

theorem find?_eq_none_iff {h : List Revision} {url : String} :
    (after h).find? url = none ↔ ∀ rule ∈ live h, rule.pattern.admits url = false := by
  rw [find?, after_rules, List.find?_eq_none]
  simp

/-- What a table answers is what its history says: the rule that decides about a URL, or none where no
live rule admits it; for a withdrawal, how many live rules have its source, all others staying in their
order; and the number of the live rules. -/
theorem answers_from_history (h : List Revision) :
    (∀ url rule, (after h).find? url = some rule ↔ Decides url rule h) ∧
      (∀ url, (after h).find? url = none ↔ ∀ rule ∈ live h, rule.pattern.admits url = false) ∧
      (∀ source, (after h).remove source =
          (after (h ++ [.remove source]), (live h).countP (·.source = source)) ∧
        (after (h ++ [.remove source])).rules = (live h).filter (·.source ≠ source)) ∧
      (after h).rules = live h ∧ (after h).size = (live h).length := by
  have holds := after_rules h
  refine ⟨fun url rule => find?_eq_some_iff, fun url => find?_eq_none_iff, fun source => ⟨?_, ?_⟩, holds, ?_⟩
  · rw [after_snoc, ← holds]
    rfl
  · rw [after_rules, live_remove]
  · rw [size, holds]

end RouteTable
end PageSpec.Network
