import PageSpec.Network.Glob
/-!
Regular expressions, as far as URL patterns need them: anchors, single characters and runs of characters, one
behind the other. An engine compiles the text of an expression and looks for a place in a URL from which on the
terms of the expression match.
-/
namespace PageSpec.Network

/-! ## Expressions -/

/-- Characters that stand for themselves behind a backslash only. -/
def signs : List Char := ['\\', '.', '+', '*', '?', '(', ')', '|', '[', ']', '{', '}', '^', '$']

/-- Characters that do not simply stand for themselves between brackets. -/
def classSigns : List Char := ['\\', '[', ']', '^', '-', '&', '~']

/-- What matches one character. -/
inductive Atom where
  /-- Any character but a line feed. -/
  | any
  /-- Any character but one. -/
  | noneOf (c : Char) (plain : c ∉ classSigns)
  | letter (c : Char)

namespace Atom

def admits : Atom → Char → Bool
  | .any, c => c != '\n'
  | .noneOf d _, c => c != d
  | .letter d, c => c == d

def chars : Atom → List Char
  | .any => ['.']
  | .noneOf c _ => ['[', '^', c, ']']
  | .letter c => if c ∈ signs then ['\\', c] else [c]

end Atom

inductive Term where
  /-- The start of the text. -/
  | start
  /-- The end of the text. -/
  | finish
  | one (a : Atom)
  /-- A run of characters, empty or not. -/
  | many (a : Atom)

def Term.chars : Term → List Char
  | .start => ['^']
  | .finish => ['$']
  | .one a => a.chars
  | .many a => a.chars ++ ['*']

/-- Terms match one behind the other, from the place between `before` and the text that is left. -/
def Along : List Term → List Char → List Char → Prop
  | [], _, _ => True
  | .start :: ts, before, cs => before = [] ∧ Along ts before cs
  | .finish :: ts, before, cs => cs = [] ∧ Along ts before cs
  | .one a :: ts, before, cs => ∃ c rest, cs = c :: rest ∧ a.admits c = true ∧ Along ts (before ++ [c]) rest
  | .many a :: ts, before, cs =>
    ∃ run rest, cs = run ++ rest ∧ (∀ c ∈ run, a.admits c = true) ∧ Along ts (before ++ run) rest

structure Expression where
  terms : List Term

namespace Expression

def text (x : Expression) : String := .ofList (x.terms.flatMap Term.chars)

/-- The expression matches somewhere in a text. -/
def Found (x : Expression) (s : String) : Prop := ∃ before cs, s.toList = before ++ cs ∧ Along x.terms before cs

end Expression

/-! ## Engines -/

/-- What compiles expressions and looks for them in texts. -/
structure Engine where
  Compiled : Type
  /-- The compiled form of a text is below the limit on its size. -/
  Fits : String → Prop
  /-- The compiled form of a text, or what is wrong with the text. -/
  compile : String → Except String Compiled
  isMatch : Compiled → String → Bool

/-- An engine compiles every expression that is not too large, and finds it where it matches. -/
structure Engine.Documented (e : Engine) : Prop where
  compiles : ∀ x : Expression, e.Fits x.text → ∃ made, e.compile x.text = .ok made
  finds : ∀ (x : Expression) (made : e.Compiled) (s : String), e.compile x.text = .ok made →
    (e.isMatch made s = true ↔ x.Found s)

/-- The compiled form of a URL glob. -/
def Engine.glob (e : Engine) (pattern : String) : Except String e.Compiled :=
  (e.compile (Glob.ofString pattern).regex).mapError fun why => s!"invalid URL glob '{pattern}': {why}"

/-! ## An engine for these expressions alone -/

/-- The terms of a text, and whether a star that repeats what stands before the text comes first. -/
def readTerms? : List Char → Option (Bool × List Term)
  | [] => some (false, [])
  | '*' :: cs => match readTerms? cs with
    | some (false, ts) => some (true, ts)
    | _ => none
  | '^' :: cs => match readTerms? cs with
    | some (false, ts) => some (false, .start :: ts)
    | _ => none
  | '$' :: cs => match readTerms? cs with
    | some (false, ts) => some (false, .finish :: ts)
    | _ => none
  | '.' :: cs => (readTerms? cs).map (repeated .any)
  | '[' :: '^' :: c :: ']' :: cs =>
    if plain : c ∉ classSigns then (readTerms? cs).map (repeated (.noneOf c plain)) else none
  | '\\' :: c :: cs => if c ∈ signs then (readTerms? cs).map (repeated (.letter c)) else none
  | c :: cs => if c ∈ signs then none else (readTerms? cs).map (repeated (.letter c))
where
  repeated (a : Atom) : Bool × List Term → Bool × List Term
    | (true, ts) => (false, .many a :: ts)
    | (false, ts) => (false, .one a :: ts)

/-- The places that a run can end at. -/
def runEnds (a : Atom) : List Char → List Char → List (List Char × List Char)
  | before, [] => [(before, [])]
  | before, c :: cs => (before, c :: cs) :: if a.admits c then runEnds a (before ++ [c]) cs else []

/-- Whether terms match from a place on, by trying every end of every run. -/
def isAlong : List Term → List Char → List Char → Bool
  | [], _, _ => true
  | .start :: ts, before, cs => before.isEmpty && isAlong ts before cs
  | .finish :: ts, before, cs => cs.isEmpty && isAlong ts before cs
  | .one _ :: _, _, [] => false
  | .one a :: ts, before, c :: cs => a.admits c && isAlong ts (before ++ [c]) cs
  | .many a :: ts, before, cs => (runEnds a before cs).any fun place => isAlong ts place.1 place.2

/-- The engine that knows these expressions only, up to a length. -/
def Engine.plain (limit : Nat) : Engine where
  Compiled := List Term
  Fits text := text.length ≤ limit
  compile text :=
    if limit < text.length then .error s!"Compiled regex exceeds size limit of {limit} bytes." else
    match readTerms? text.toList with
    | some (false, ts) => .ok ts
    | _ => .error "regex parse error"
  isMatch ts s := (List.range (s.toList.length + 1)).any fun n => isAlong ts (s.toList.take n) (s.toList.drop n)

theorem readTerms?_atom (a : Atom) {cs : List Char} {starred : Bool} {ts : List Term}
    (rest : readTerms? cs = some (starred, ts)) :
    readTerms? (a.chars ++ cs) = some (false, (if starred then .many a else .one a) :: ts) := by
  have repeated : readTerms?.repeated a (starred, ts) = (false, (if starred then .many a else .one a) :: ts) := by
    cases starred <;> rfl
  cases a with
  | any => simp [Atom.chars, readTerms?, rest, repeated]
  | noneOf c plain => simp [Atom.chars, readTerms?, rest, plain, repeated]
  | letter c =>
    by_cases sign : c ∈ signs
    · simp [Atom.chars, readTerms?, rest, sign, repeated]
    · have others : c ≠ '*' ∧ c ≠ '^' ∧ c ≠ '$' ∧ c ≠ '.' ∧ c ≠ '[' ∧ c ≠ '\\' := by
        refine ⟨?_, ?_, ?_, ?_, ?_, ?_⟩ <;>
        · rintro rfl
          exact sign (by decide)
      obtain ⟨star, caret, dollar, dot, bracket, backslash⟩ := others
      simp only [Atom.chars, sign, ↓reduceIte, List.singleton_append]
      rw [readTerms?]
      · simp [rest, sign, repeated]
      all_goals simp_all

theorem readTerms?_chars (ts : List Term) : readTerms? (ts.flatMap Term.chars) = some (false, ts) := by
  induction ts with
  | nil => rfl
  | cons t ts ih =>
    rw [List.flatMap_cons]
    cases t with
    | start => simp [Term.chars, readTerms?, ih]
    | finish => simp [Term.chars, readTerms?, ih]
    | one a => exact readTerms?_atom a ih
    | many a =>
      have starred : readTerms? ('*' :: ts.flatMap Term.chars) = some (true, ts) := by simp [readTerms?, ih]
      rw [Term.chars, List.append_assoc]
      exact readTerms?_atom a starred

theorem mem_runEnds {a : Atom} : ∀ {before cs : List Char} {place : List Char × List Char},
    place ∈ runEnds a before cs ↔
      ∃ run, cs = run ++ place.2 ∧ (∀ c ∈ run, a.admits c = true) ∧ place.1 = before ++ run
  | before, [], place => by
    rw [runEnds, List.mem_singleton]
    constructor
    · rintro rfl
      exact ⟨[], by simp⟩
    · rintro ⟨run, split, _, ends⟩
      obtain ⟨rfl, rest⟩ := List.append_eq_nil_iff.mp split.symm
      exact Prod.ext (by simpa using ends) rest
  | before, c :: cs, place => by
    rw [runEnds, List.mem_cons]
    constructor
    · rintro (rfl | later)
      · exact ⟨[], by simp⟩
      · split at later
        · rename_i first
          obtain ⟨run, rfl, others, ends⟩ := mem_runEnds.mp later
          exact ⟨c :: run, rfl, List.forall_mem_cons.mpr ⟨first, others⟩, by simp [ends]⟩
        · cases later
    · rintro ⟨run, split, run_admits, ends⟩
      cases run with
      | nil => exact .inl (Prod.ext (by simpa using ends) split.symm)
      | cons d run =>
        obtain ⟨rfl, rest⟩ := List.cons.inj split
        obtain ⟨first, others⟩ := List.forall_mem_cons.mp run_admits
        rw [if_pos first]
        exact .inr (mem_runEnds.mpr ⟨run, rest, others, by simp [ends]⟩)

theorem isAlong_iff : ∀ {ts : List Term} {before cs : List Char}, isAlong ts before cs = true ↔ Along ts before cs
  | [], _, _ => by simp [isAlong, Along]
  | .start :: ts, before, cs => by simp [isAlong, Along, isAlong_iff]
  | .finish :: ts, before, cs => by simp [isAlong, Along, isAlong_iff]
  | .one a :: ts, before, [] => by simp [isAlong, Along]
  | .one a :: ts, before, c :: cs => by
    rw [isAlong, Bool.and_eq_true, isAlong_iff]
    constructor
    · rintro ⟨admits, along⟩
      exact ⟨c, cs, rfl, admits, along⟩
    · rintro ⟨_, _, ⟨⟩, admits, along⟩
      exact ⟨admits, along⟩
  | .many a :: ts, before, cs => by
    simp only [isAlong, Along, List.any_eq_true, mem_runEnds, isAlong_iff]
    constructor
    · rintro ⟨⟨reached, rest⟩, ⟨run, split, admits, ends⟩, along⟩
      exact ⟨run, rest, split, admits, ends ▸ along⟩
    · rintro ⟨run, rest, split, admits, along⟩
      exact ⟨(before ++ run, rest), ⟨run, split, admits, rfl⟩, along⟩

theorem plain_compile (limit : Nat) (x : Expression) :
    (Engine.plain limit).compile x.text = if limit < x.text.length
      then .error s!"Compiled regex exceeds size limit of {limit} bytes." else .ok x.terms := by
  have read : readTerms? x.text.toList = some (false, x.terms) := by
    rw [Expression.text, String.toList_ofList, readTerms?_chars]
  simp only [Engine.plain, read]

theorem plain_documented (limit : Nat) : (Engine.plain limit).Documented where
  compiles x fits := ⟨x.terms, by rw [plain_compile, if_neg (Nat.not_lt.mpr fits)]⟩
  finds x made s compiled := by
    rw [plain_compile] at compiled
    split at compiled
    · cases compiled
    · cases compiled
      simp only [Engine.plain, List.any_eq_true, List.mem_range, isAlong_iff, Expression.Found]
      constructor
      · rintro ⟨n, _, along⟩
        exact ⟨_, _, (List.take_append_drop n s.toList).symm, along⟩
      · rintro ⟨before, cs, split, along⟩
        have inside : before.length < s.toList.length + 1 := by
          rw [split, List.length_append]
          omega
        exact ⟨before.length, inside, by simpa [split] using along⟩

end PageSpec.Network
