import Mathlib.Data.List.Basic
import PageSpec.DevTools.Keys
import PageSpec.Proofs.Text.Cutting
/-!
What chords press. Names of modifiers and a key are joined by plus signs, and the plus sign is a key itself, so
that a chord which ends with one has the plus sign for its key or lacks a key. The two are told apart by what
stands before: nothing, or another plus sign, if the key is there. A chord that lacks its key is taken all the
same, for the plus sign without the name that stands before it.
-/
namespace PageSpec.DevTools

/-- A set of modifiers has the bits of its members and no others. -/
theorem Modifier.mask_testBit (ms : List Modifier) (i : Nat) :
    (mask ms).testBit i = ms.any (·.bit.testBit i) := by
  have grown (set : Nat) : (ms.foldl (fun set m => set ||| m.bit) set).testBit i =
      (set.testBit i || ms.any (·.bit.testBit i)) := by
    induction ms generalizing set with
    | nil => simp
    | cons m ms ih => rw [List.foldl_cons, ih, Nat.testBit_or, List.any_cons, Bool.or_assoc]
  rw [mask, grown, Nat.zero_testBit, Bool.false_or]

namespace KeyStroke

/-! ## Chords and what they mean -/

/-- A chord is written as some names and a key. The plus sign joins them, so it is in no name, and in no
key but the one that it is itself. -/
structure Spells (chord : String) (names : List String) (key : String) : Prop where
  joined : "+".intercalate (names ++ [key]) = chord
  apart : ∀ name ∈ names, '+' ∉ name.toList
  key_there : key ≠ ""
  key_apart : key = "+" ∨ '+' ∉ key.toList

/-- All the names are names of modifiers. -/
def Known (names : List String) : Prop := ∀ name ∈ names, ∃ m, Modifier.ofName? name = some m

/-- The key is sent, a blank for the one called Space, with the bits of the named modifiers and no others. -/
structure Presses (k : KeyStroke) (names : List String) (key : String) : Prop where
  key : k.key = if key = "Space" then " " else key
  modifiers : ∀ i, k.modifiers.testBit i = true ↔
    ∃ name ∈ names, ∃ m, Modifier.ofName? name = some m ∧ m.bit.testBit i = true

/-- A chord is accounted for completely: it is taken if it is written as modifiers and a key, be it the plus sign,
and then for exactly these; otherwise it is refused as a mistake of the document. -/
structure Accounted (chord : String) : Prop where
  sound : ∀ k, parse chord = .ok k → ∃ names key, Spells chord names key ∧ Known names ∧ Presses k names key
  accepts : ∀ names key, Spells chord names key → Known names → ∃ k, parse chord = .ok k
  refuses : (¬ ∃ names key, Spells chord names key ∧ Known names) →
    ∃ m, parse chord = .error m ∧ (Failure.mistake m).isConfig = true

/-- Modifiers are followed by one more name, and that by a plus sign with nothing behind it. -/
def Dangling (chord : String) : Prop := ∃ names last, Known names ∧ last ≠ "" ∧ '+' ∉ last.toList ∧
  "+".intercalate (names ++ [last, ""]) = chord

/-! ## Pieces -/

section
variable {chord : String} {names ps : List String} {key last p : String}

theorem cut_join (apart : ∀ q ∈ ps ++ [p], '+' ∉ q.toList) :
    (Text.splitAll '+' ("+".intercalate (ps ++ [p])).toList).map String.ofList = ps ++ [p] := by
  rw [String.toList_intercalate]
  have apart' : ∀ q ∈ (ps ++ [p]).map String.toList, '+' ∉ q := List.forall_mem_map.mpr apart
  have back : ((ps ++ [p]).map String.toList).map String.ofList = ps ++ [p] := by simp [Function.comp_def]
  cases pieces : (ps ++ [p]).map String.toList with
  | nil => simp at pieces
  | cons q qs =>
    rw [pieces] at apart' back
    rw [show "+".toList = ['+'] from rfl, Text.splitAll_intercalate apart', back]

theorem exists_join (chord : String) :
    ∃ ps p, "+".intercalate (ps ++ [p]) = chord ∧ ∀ q ∈ ps ++ [p], '+' ∉ q.toList := by
  obtain ⟨q, qs, -, joined, apart⟩ := Text.splitAll_pieces '+' chord.toList
  obtain ⟨ps, p, pieces⟩ := (List.eq_nil_or_concat (q :: qs)).resolve_left (List.cons_ne_nil q qs)
  rw [pieces] at joined apart
  refine ⟨ps.map String.ofList, .ofList p, ?_, ?_⟩
  · rw [← String.toList_inj, String.toList_intercalate, ← joined]
    simp [Function.comp_def]
  · simpa [or_imp, forall_and] using apart

theorem split?_key (apart : ∀ q ∈ ps ++ [p], '+' ∉ q.toList) (there : p ≠ "") :
    split? ("+".intercalate (ps ++ [p])) = some (ps, p) := by
  unfold split?
  rw [cut_join apart]
  simp

/-- Behind a name, a plus sign at the end is taken for the key, and the name is dropped. -/
theorem split?_plus (apart : ∀ q ∈ ps ++ [p], '+' ∉ q.toList) :
    split? ("+".intercalate (ps ++ [p, ""])) = some (ps, "+") := by
  have apart' : ∀ q ∈ (ps ++ [p]) ++ [""], '+' ∉ q.toList := by simpa [or_imp, forall_and] using apart
  have pieces := cut_join apart'
  have ends : ("+".intercalate ((ps ++ [p]) ++ [""])).toList.getLast? = some '+' := by
    rw [String.intercalate_append_of_ne_nil (by simp) (by simp)]
    simp
  rw [List.append_cons]
  unfold split?
  rw [pieces, ends]
  simp

/-- The plus sign as the key falls into two pieces with nothing in them. -/
theorem join_plus (names : List String) :
    "+".intercalate (names ++ ["+"]) = "+".intercalate (names ++ ["", ""]) := by
  cases names with
  | nil => rfl
  | cons name names =>
    rw [String.intercalate_append_of_ne_nil (by simp) (by simp),
      String.intercalate_append_of_ne_nil (by simp) (by simp)]
    rfl

theorem Spells.split?_eq (spelled : Spells chord names key) : split? chord = some (names, key) := by
  obtain ⟨rfl, apart, there, rfl | plain⟩ := spelled
  · rw [join_plus]
    exact split?_plus (by simpa [or_imp, forall_and] using apart)
  · refine split?_key ?_ there
    simpa [or_imp, forall_and] using ⟨apart, plain⟩

/-- A chord is written with a key, or with a name before the last plus sign and no key, or it is empty. -/
inductive Cut (chord : String) : Prop
  | keyed (names : List String) (key : String) (spelled : Spells chord names key)
  | keyless (names : List String) (last : String) (apart : ∀ q ∈ names ++ [last], '+' ∉ q.toList)
    (there : last ≠ "") (joined : "+".intercalate (names ++ [last, ""]) = chord)
  | empty (nothing : chord = "")

theorem cut (chord : String) : Cut chord := by
  obtain ⟨ps, p, joined, apart⟩ := exists_join chord
  have first : ∀ q ∈ ps, '+' ∉ q.toList := fun q member => apart q (List.mem_append_left _ member)
  by_cases there : p = ""
  · subst there
    rcases List.eq_nil_or_concat' ps with rfl | ⟨qs, q, rfl⟩
    · exact .empty (by rw [← joined]; rfl)
    · rw [List.append_assoc] at joined
      by_cases bare : q = ""
      · subst bare
        have plain : ∀ name ∈ qs, '+' ∉ name.toList := fun name member =>
          first name (List.mem_append_left _ member)
        exact .keyed qs "+" ⟨(join_plus qs).trans joined, plain, by decide, .inl rfl⟩
      · exact .keyless qs q first bare joined
  · exact .keyed ps p ⟨joined, first, there, .inr (apart p (by simp))⟩

/-- A chord without its key is not one with a key as well. -/
theorem Spells.not_keyless {names' : List String} (spelled : Spells chord names key)
    (apart : ∀ q ∈ names' ++ [last], '+' ∉ q.toList) (there : last ≠ "") :
    "+".intercalate (names' ++ [last, ""]) ≠ chord := by
  intro joined
  have same := spelled.split?_eq
  rw [← joined, split?_plus apart] at same
  obtain ⟨rfl, rfl⟩ := Prod.mk.inj (Option.some.inj same)
  have opened := spelled.joined.trans joined.symm
  rw [join_plus, List.append_cons, List.append_cons names' last] at opened
  have blank : ∀ q ∈ names' ++ [""] ++ [""], '+' ∉ q.toList := by
    simpa [or_imp, forall_and] using spelled.apart
  have named : ∀ q ∈ names' ++ [last] ++ [""], '+' ∉ q.toList := by simpa [or_imp, forall_and] using apart
  have pieces := cut_join blank
  rw [opened, cut_join named] at pieces
  simp [there] at pieces

/-! ## Modifiers -/

theorem plain_of_known (known : Known names) : ∀ name ∈ names, '+' ∉ name.toList := by
  intro name member
  obtain ⟨m, named⟩ := known name member
  unfold Modifier.ofName? at named
  split at named
  case h_7 => cases named
  all_goals decide

theorem modifiersOf_known (chord : String) : ∀ names : List String, Known names →
    ∃ ms, modifiersOf chord names = .ok ms ∧ names.map Modifier.ofName? = ms.map some
  | [], _ => ⟨[], rfl, rfl⟩
  | name :: names, known => by
    obtain ⟨⟨m, named⟩, others⟩ := List.forall_mem_cons.mp known
    obtain ⟨ms, read, all⟩ := modifiersOf_known chord names others
    refine ⟨m :: ms, ?_, by rw [List.map_cons, List.map_cons, named, all]⟩
    rw [modifiersOf, named]
    dsimp only
    rw [read]
    rfl

theorem modifiersOf_unknown (chord : String) : ∀ names : List String, ¬ Known names →
    ∃ e, modifiersOf chord names = .error e
  | [], strange => absurd (fun _ member => nomatch member) strange
  | name :: names, strange => by
    rw [modifiersOf]
    cases named : Modifier.ofName? name with
    | none => exact ⟨_, rfl⟩
    | some m =>
      obtain ⟨e, failed⟩ := modifiersOf_unknown chord names
        fun known => strange (List.forall_mem_cons.mpr ⟨⟨m, named⟩, known⟩)
      exact ⟨e, by dsimp only; rw [failed]; rfl⟩

theorem ofName_held (name : String) (ms : List Modifier) :
    (ofName name ms).key = (if name = "Space" then " " else name) ∧
      (ofName name ms).modifiers = Modifier.mask ms := by
  unfold ofName
  dsimp only
  cases NamedKey.ofName? name with
  | some k => exact ⟨rfl, rfl⟩
  | none =>
    dsimp only
    split
    · exact ⟨rfl, rfl⟩
    · exact ⟨rfl, rfl⟩

theorem ofName_presses {ms : List Modifier} (named : names.map Modifier.ofName? = ms.map some) :
    Presses (ofName key ms) names key := by
  obtain ⟨sent, set⟩ := ofName_held key ms
  refine ⟨sent, fun i => ?_⟩
  rw [set, Modifier.mask_testBit, List.any_eq_true]
  have held (m : Modifier) : m ∈ ms ↔ ∃ name ∈ names, Modifier.ofName? name = some m := by
    rw [← List.mem_map, named]
    simp
  simp only [held]
  constructor
  · rintro ⟨m, ⟨name, member, is_⟩, bit⟩
    exact ⟨name, member, m, is_, bit⟩
  · rintro ⟨name, member, m, is_, bit⟩
    exact ⟨m, ⟨name, member, is_⟩, bit⟩

/-! ## Chords as they are taken -/

theorem parse_known (taken : split? chord = some (names, key)) (known : Known names) :
    ∃ k, parse chord = .ok k ∧ Presses k names key := by
  obtain ⟨ms, read, named⟩ := modifiersOf_known chord names known
  refine ⟨ofName key ms, ?_, ofName_presses named⟩
  rw [parse, taken]
  dsimp only
  rw [read]
  rfl

theorem parse_unknown (taken : split? chord = some (names, key)) (strange : ¬ Known names) :
    ∃ e, parse chord = .error e := by
  obtain ⟨e, failed⟩ := modifiersOf_unknown chord names strange
  refine ⟨e, ?_⟩
  rw [parse, taken]
  dsimp only
  rw [failed]
  rfl

theorem Dangling.apart (dangling : Dangling chord) : ∃ names last, Known names ∧ last ≠ "" ∧
    (∀ q ∈ names ++ [last], '+' ∉ q.toList) ∧ "+".intercalate (names ++ [last, ""]) = chord := by
  obtain ⟨names, last, known, there, plain, joined⟩ := dangling
  refine ⟨names, last, known, there, ?_, joined⟩
  simpa [or_imp, forall_and] using ⟨plain_of_known known, plain⟩

/-- A refused chord is accounted for unless it is modifiers and a key. -/
theorem Accounted.of_error {e : Mistake} (refused : parse chord = .error e)
    (none_ : ∀ names key, Spells chord names key → ¬ Known names) : Accounted chord where
  sound k taken := by rw [refused] at taken; cases taken
  accepts names key spelled known := absurd known (none_ names key spelled)
  refuses _ := ⟨e, refused, rfl⟩

theorem Spells.accounted (spelled : Spells chord names key) : Accounted chord := by
  by_cases known : Known names
  · obtain ⟨k, taken, presses⟩ := parse_known spelled.split?_eq known
    constructor
    case sound =>
      intro k' taken'
      cases taken.symm.trans taken'
      exact ⟨names, key, spelled, known, presses⟩
    case accepts => exact fun _ _ _ _ => ⟨k, taken⟩
    case refuses => exact fun none_ => absurd ⟨names, key, spelled, known⟩ none_
  · obtain ⟨e, refused⟩ := parse_unknown spelled.split?_eq known
    refine .of_error refused fun names' key' spelled' => ?_
    cases spelled.split?_eq.symm.trans spelled'.split?_eq
    exact known

theorem Spells.not_dangling (spelled : Spells chord names key) : ¬ Dangling chord := by
  intro dangling
  obtain ⟨names', last, -, there, apart, joined⟩ := dangling.apart
  exact spelled.not_keyless apart there joined

section
variable (apart : ∀ q ∈ names ++ [last], '+' ∉ q.toList) (there : last ≠ "")
  (joined : "+".intercalate (names ++ [last, ""]) = chord)
include apart there joined

theorem dangling_keyless_iff : Dangling chord ↔ Known names := by
  have taken : split? chord = some (names, "+") := joined ▸ split?_plus apart
  constructor
  · intro dangling
    obtain ⟨names', last', known', -, apart', joined'⟩ := dangling.apart
    have taken' : split? chord = some (names', "+") := joined' ▸ split?_plus apart'
    cases taken.symm.trans taken'
    exact known'
  · intro known
    exact ⟨names, last, known, there, apart last (by simp), joined⟩

/-- A chord without its key is taken if what stands before the last name is known. -/
theorem accounted_keyless_iff : Accounted chord ↔ ¬ Known names := by
  have taken : split? chord = some (names, "+") := joined ▸ split?_plus apart
  have lacks (names' : List String) (key : String) : ¬ Spells chord names' key := fun spelled =>
    spelled.not_keyless apart there joined
  constructor
  · intro accounted known
    obtain ⟨k, pressed, -⟩ := parse_known taken known
    obtain ⟨names', key, spelled, -⟩ := accounted.sound k pressed
    exact lacks names' key spelled
  · intro strange
    obtain ⟨e, refused⟩ := parse_unknown taken strange
    exact .of_error refused fun names' key spelled => absurd spelled (lacks names' key)

end

/-- A chord is accounted for completely unless its key is missing behind modifiers and one more name: then that
name, whatever it is, is dropped, and the plus sign is pressed. -/
theorem accounted_iff (chord : String) : Accounted chord ↔ ¬ Dangling chord := by
  cases cut chord with
  | keyed names key spelled => exact iff_of_true spelled.accounted spelled.not_dangling
  | keyless names last apart there joined =>
    rw [dangling_keyless_iff apart there joined]
    exact accounted_keyless_iff apart there joined
  | empty nothing =>
    subst nothing
    have untaken : split? "" = none := by decide
    have refused : parse "" = .error (.chord "") := by rw [parse, untaken]
    refine iff_of_true (.of_error refused fun names key spelled => ?_) fun dangling => ?_
    · cases untaken.symm.trans spelled.split?_eq
    · obtain ⟨names, last, -, -, apart, joined⟩ := dangling.apart
      have taken : split? "" = some (names, "+") := joined ▸ split?_plus apart
      cases untaken.symm.trans taken

end

/-- Shift and no key: the plus sign is pressed, and Shift is not held. -/
theorem shiftAlone_dropped :
    parse "Shift+" = .ok ⟨"+", "", some "+", 43, 0⟩ ∧ ¬ Accounted "Shift+" := by
  refine ⟨rfl, fun accounted => ?_⟩
  obtain ⟨names, key, spelled, -⟩ := accounted.sound _ rfl
  have apart : ∀ q ∈ [] ++ ["Shift"], '+' ∉ q.toList := by decide
  exact spelled.not_keyless apart (by decide) rfl

end KeyStroke
end PageSpec.DevTools
