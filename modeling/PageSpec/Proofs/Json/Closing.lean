import PageSpec.Proofs.Json.Written
/-!
Where a written value ends. Whoever knows brackets, quotes and backslashes, and nothing else of values, finds the
bracket that closes a compact array or object, whatever its strings hold and whatever follows.
-/
namespace PageSpec.Json

/-! ## Brackets and quotes -/

/-- How far a text has been followed: how many brackets are open, and within a string, whether a backslash stands
right before. -/
inductive Place where
  | outside (opened : Nat)
  | inside (opened : Nat) (escaped : Bool)
  deriving DecidableEq, Repr

/-- The place behind one more sign. -/
def Place.next : Place → Char → Place
  | .outside d, c =>
    if c = '"' then .inside d false
    else if c = '[' ∨ c = '{' then .outside (d + 1)
    else if c = ']' ∨ c = '}' then .outside (d - 1)
    else .outside d
  | .inside d true, _ => .inside d false
  | .inside d false, c =>
    if c = '\\' then .inside d true
    else if c = '"' then .outside d
    else .inside d false

/-- Cuts a text behind the first sign after which no bracket is open. -/
def cutClosed : Place → List Char → Option (List Char × List Char)
  | _, [] => none
  | p, c :: cs =>
    if p.next c = .outside 0 then some ([c], cs)
    else (cutClosed (p.next c) cs).map fun halves => (c :: halves.1, halves.2)

/-- A text leads from one place to another, and some bracket is open all the way. -/
inductive Leads : Place → List Char → Place → Prop
  | nothing (p : Place) : Leads p [] p
  | sign {p q : Place} {c : Char} {cs : List Char} (open_ : p.next c ≠ .outside 0) (rest : Leads (p.next c) cs q) :
    Leads p (c :: cs) q

theorem cutClosed_leads {p q : Place} {cs : List Char} (leads : Leads p cs q) (rest : List Char) :
    cutClosed p (cs ++ rest) = (cutClosed q rest).map fun halves => (cs ++ halves.1, halves.2) := by
  induction leads with
  | nothing p => simp
  | sign open_ _ ih =>
    rw [List.cons_append, cutClosed, if_neg open_, ih, Option.map_map]
    rfl

namespace Leads
variable {p q r : Place} {c : Char} {front back cs : List Char} {d : Nat}

theorem append (first : Leads p front q) (second : Leads q back r) : Leads p (front ++ back) r := by
  induction first with
  | nothing p => exact second
  | sign open_ _ ih => exact .sign open_ (ih second)

theorem opening (bracket : c = '[' ∨ c = '{') (rest : Leads (.outside (d + 1)) cs q) :
    Leads (.outside d) (c :: cs) q := by
  have next : (Place.outside d).next c = .outside (d + 1) := by rcases bracket with rfl | rfl <;> rfl
  exact .sign (by simp [next]) (by rwa [next])

/-- A closing bracket that is not the last one. -/
theorem closing (bracket : c = ']' ∨ c = '}') (rest : Leads (.outside (d + 1)) cs q) :
    Leads (.outside (d + 2)) (c :: cs) q := by
  have next : (Place.outside (d + 2)).next c = .outside (d + 1) := by rcases bracket with rfl | rfl <;> rfl
  exact .sign (by simp [next]) (by rwa [next])

/-- A sign outside of strings that is neither a bracket nor a quote. -/
theorem dull (other : c ∉ ['"', '[', '{', ']', '}']) (rest : Leads (.outside (d + 1)) cs q) :
    Leads (.outside (d + 1)) (c :: cs) q := by
  have next : (Place.outside (d + 1)).next c = .outside (d + 1) := by
    simp only [List.mem_cons, List.not_mem_nil, or_false, not_or] at other
    simp [Place.next, other]
  exact .sign (by simp [next]) (by rwa [next])

theorem dulls (other : ∀ c ∈ cs, c ∉ ['"', '[', '{', ']', '}']) : Leads (.outside (d + 1)) cs (.outside (d + 1)) := by
  induction cs with
  | nil => exact .nothing _
  | cons c cs ih =>
    exact .dull (other c List.mem_cons_self) (ih fun c member => other c (List.mem_cons_of_mem _ member))

theorem quote (rest : Leads (.inside d false) cs q) : Leads (.outside d) ('"' :: cs) q :=
  .sign (by simp [Place.next]) rest

theorem endquote (rest : Leads (.outside (d + 1)) cs q) : Leads (.inside (d + 1) false) ('"' :: cs) q :=
  .sign (by simp [Place.next]) rest

theorem letter (quote : c ≠ '"') (backslash : c ≠ '\\') (rest : Leads (.inside d false) cs q) :
    Leads (.inside d false) (c :: cs) q := by
  have next : (Place.inside d false).next c = .inside d false := by simp [Place.next, quote, backslash]
  exact .sign (by simp [next]) (by rwa [next])

/-- Whatever stands behind a backslash, a quote or another backslash as well, does not end the string. -/
theorem escape (c : Char) (rest : Leads (.inside d false) cs q) : Leads (.inside d false) ('\\' :: c :: cs) q :=
  .sign (by simp [Place.next]) (.sign (by simp [Place.next]) rest)

theorem unit {u : List Char} (written : Reader.Unit c u) (rest : Leads (.inside d false) cs q) :
    Leads (.inside d false) (u ++ cs) q := by
  cases written with
  | plain quote backslash _ => exact letter quote backslash rest
  | @short e _ => exact escape e rest
  | @control a b _ hex =>
    obtain ⟨first, second⟩ := Reader.hexQuad?_other hex (c := '"') (by decide)
    obtain ⟨first', second'⟩ := Reader.hexQuad?_other hex (c := '\\') (by decide)
    exact escape 'u' (letter (by decide) (by decide) (letter (by decide) (by decide)
      (letter first first' (letter second second' rest))))

theorem string (s : String) : Leads (.outside (d + 1)) (stringChars s) (.outside (d + 1)) := by
  have units : ∀ cs : List Char, Leads (.inside (d + 1) false) (cs.flatMap escapeChar ++ ['"']) (.outside (d + 1)) := by
    intro cs
    induction cs with
    | nil => exact endquote (.nothing _)
    | cons c cs ih =>
      rw [List.flatMap_cons, List.append_assoc]
      exact unit (Reader.escapeChar_unit c) ih
  exact quote (units s.toList)

end Leads

/-! ## The end of a value -/

mutual
theorem leads_chars : ∀ (v : Json) (d : Nat), v.Integral → Leads (.outside (d + 1)) v.chars (.outside (d + 1))
  | .null, _, _ => .dulls (by simp [chars])
  | .bool true, _, _ => .dulls (by simp [chars])
  | .bool false, _, _ => .dulls (by simp [chars])
  | .int n, _, _ => .dulls fun c member => by
    rcases sign_of_integer member with rfl | digit
    · decide
    · intro bracket
      have none_ : ['"', '[', '{', ']', '}'].all (!Text.isDigit ·) = true := by decide
      have letter := List.all_eq_true.mp none_ c bracket
      rw [digit] at letter
      cases letter
  | .float _, _, integral => integral.elim
  | .str s, _, _ => .string s
  | .arr [], _, _ => .opening (.inl rfl) (.closing (.inl rfl) (.nothing _))
  | .arr (x :: xs), d, integral => by
    obtain ⟨front, last, leads⟩ := leads_itemChars xs integral.2
    rw [chars, last]
    exact .opening (.inl rfl) ((leads_chars x (d + 1) integral.1).append
      ((leads (d + 1)).append (.closing (.inl rfl) (.nothing _))))
  | .obj [], _, _ => .opening (.inr rfl) (.closing (.inr rfl) (.nothing _))
  | .obj ((k, v) :: fs), d, integral => by
    obtain ⟨front, last, leads⟩ := leads_fieldChars fs integral.2
    rw [chars, last]
    exact .opening (.inr rfl) ((Leads.string k).append (.dull (by decide) ((leads_chars v (d + 1) integral.1).append
      ((leads (d + 1)).append (.closing (.inr rfl) (.nothing _))))))
theorem leads_itemChars : ∀ xs : List Json, IntegralItems xs → ∃ front, itemChars xs = front ++ [']'] ∧
    ∀ d, Leads (.outside (d + 1)) front (.outside (d + 1))
  | [], _ => ⟨[], rfl, fun _ => .nothing _⟩
  | x :: xs, integral => by
    obtain ⟨front, last, leads⟩ := leads_itemChars xs integral.2
    refine ⟨',' :: (chars x ++ front), ?_, fun d => .dull (by decide) ((leads_chars x d integral.1).append (leads d))⟩
    rw [itemChars, last, List.cons_append, List.append_assoc]
theorem leads_fieldChars : ∀ fs : List (String × Json), IntegralFields fs → ∃ front, fieldChars fs = front ++ ['}'] ∧
    ∀ d, Leads (.outside (d + 1)) front (.outside (d + 1))
  | [], _ => ⟨[], rfl, fun _ => .nothing _⟩
  | (k, v) :: fs, integral => by
    obtain ⟨front, last, leads⟩ := leads_fieldChars fs integral.2
    refine ⟨',' :: (stringChars k ++ ':' :: (chars v ++ front)), ?_, fun d => .dull (by decide)
      ((Leads.string k).append (.dull (by decide) ((leads_chars v d integral.1).append (leads d))))⟩
    rw [fieldChars, last]
    simp only [List.cons_append, List.append_assoc]
end

/-- An array or an object is cut off right where its text ends. -/
theorem cutClosed_chars {v : Json} (bracketed : v.Bracketed) (integral : v.Integral) (rest : List Char) :
    cutClosed (.outside 0) (v.chars ++ rest) = some (v.chars, rest) := by
  have parts : ∃ front c, v.chars = front ++ [c] ∧ (c = ']' ∨ c = '}') ∧ Leads (.outside 0) front (.outside 1) := by
    cases v with
    | arr xs => cases xs with
      | nil => exact ⟨['['], ']', rfl, .inl rfl, .opening (.inl rfl) (.nothing _)⟩
      | cons x xs =>
        obtain ⟨front, last, leads⟩ := leads_itemChars xs integral.2
        refine ⟨'[' :: (chars x ++ front), ']', ?_, .inl rfl,
          .opening (.inl rfl) ((leads_chars x 0 integral.1).append (leads 0))⟩
        rw [chars, last, List.cons_append, List.append_assoc]
    | obj fs => cases fs with
      | nil => exact ⟨['{'], '}', rfl, .inr rfl, .opening (.inr rfl) (.nothing _)⟩
      | cons f fs =>
        obtain ⟨k, v⟩ := f
        obtain ⟨front, last, leads⟩ := leads_fieldChars fs integral.2
        refine ⟨'{' :: (stringChars k ++ ':' :: (chars v ++ front)), '}', ?_, .inr rfl, .opening (.inr rfl)
          ((Leads.string k).append (.dull (by decide) ((leads_chars v 0 integral.1).append (leads 0))))⟩
        rw [chars, last]
        simp only [List.cons_append, List.append_assoc]
    | null | bool | int | float | str => exact bracketed.elim
  obtain ⟨front, c, whole, bracket, leads⟩ := parts
  have closes : (Place.outside 1).next c = .outside 0 := by rcases bracket with rfl | rfl <;> rfl
  rw [whole, List.append_assoc, cutClosed_leads leads, List.singleton_append, cutClosed, if_pos closes]
  rfl

/-! ## Control characters -/

/-- No character of a text is a control character. -/
def Shown (cs : List Char) : Prop := ∀ c ∈ cs, 0x20 ≤ c.toNat

namespace Shown
variable {c : Char} {front back : List Char}

theorem nil : Shown [] := fun _ member => nomatch member

theorem of_all (all : front.all (0x20 ≤ ·.toNat) = true) : Shown front :=
  fun c member => of_decide_eq_true (List.all_eq_true.mp all c member)

theorem cons (first : 0x20 ≤ c.toNat) (rest : Shown back) : Shown (c :: back) :=
  List.forall_mem_cons.mpr ⟨first, rest⟩

theorem append (first : Shown front) (second : Shown back) : Shown (front ++ back) :=
  List.forall_mem_append.mpr ⟨first, second⟩

theorem unit {u : List Char} (written : Reader.Unit c u) : Shown u := by
  have hexless : ∀ c : Char, c.toNat < 0x20 → Reader.hexValue? c = none := by
    intro c low
    have below (d : Char) (high : 0x20 ≤ d.toNat) : ¬ d ≤ c := fun above =>
      absurd (high.trans above) (Nat.not_le.mpr low)
    simp [Reader.hexValue?, below '0' (by decide), below 'a' (by decide), below 'A' (by decide)]
  cases written with
  | plain _ _ shown => exact cons shown nil
  | @short e names =>
    refine cons (by decide) (cons ?_ nil)
    unfold Reader.shortEscape? at names
    split at names
    all_goals
      cases names
    all_goals decide
  | @control a b _ hex =>
    refine cons (by decide) (cons (by decide) (cons (by decide) (cons (by decide) (cons ?_ (cons ?_ nil)))))
    · exact Nat.not_lt.mp fun low => (Reader.hexQuad?_other hex (hexless a low)).1 rfl
    · exact Nat.not_lt.mp fun low => (Reader.hexQuad?_other hex (hexless b low)).2 rfl

theorem string (s : String) : Shown (stringChars s) := by
  refine cons (by decide) (append (fun c member => ?_) (cons (by decide) nil))
  obtain ⟨d, -, inside⟩ := List.mem_flatMap.mp member
  exact unit (Reader.escapeChar_unit d) c inside

end Shown

mutual
theorem shown_chars : ∀ v : Json, v.Integral → Shown v.chars
  | .null, _ => .of_all (by decide)
  | .bool true, _ => .of_all (by decide)
  | .bool false, _ => .of_all (by decide)
  | .int n, _ => fun c member => by
    rcases sign_of_integer member with rfl | digit
    · decide
    · rw [Text.isDigit, Bool.and_eq_true, decide_eq_true_eq] at digit
      exact (show 0x20 ≤ '0'.toNat by decide).trans digit.1
  | .float _, integral => integral.elim
  | .str s, _ => .string s
  | .arr [], _ => .of_all (by decide)
  | .arr (x :: xs), integral => .cons (by decide) ((shown_chars x integral.1).append (shown_itemChars xs integral.2))
  | .obj [], _ => .of_all (by decide)
  | .obj ((k, v) :: fs), integral => .cons (by decide) ((Shown.string k).append (.cons (by decide)
      ((shown_chars v integral.1).append (shown_fieldChars fs integral.2))))
theorem shown_itemChars : ∀ xs : List Json, IntegralItems xs → Shown (itemChars xs)
  | [], _ => .cons (by decide) .nil
  | x :: xs, integral => .cons (by decide) ((shown_chars x integral.1).append (shown_itemChars xs integral.2))
theorem shown_fieldChars : ∀ fs : List (String × Json), IntegralFields fs → Shown (fieldChars fs)
  | [], _ => .cons (by decide) .nil
  | (k, v) :: fs, integral => .cons (by decide) ((Shown.string k).append (.cons (by decide)
      ((shown_chars v integral.1).append (shown_fieldChars fs integral.2))))
end

end PageSpec.Json
