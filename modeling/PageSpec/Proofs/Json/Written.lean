import PageSpec.Json.Printer
import PageSpec.Json.Reader
import PageSpec.Proofs.Json.Fields
import PageSpec.Proofs.Text.Classes
import PageSpec.Proofs.Text.Cutting
/-!
Written values. A value is written with blanks between its signs or without them, and with its names in one style
or another; the compact text is one of these ways. Written with quoted names, a value is read back, as long as
its numbers are integers of 64 bits, no object repeats a name and it is not nested too deep.
-/
namespace PageSpec

namespace Fields

theorem set_absent : ∀ {fs : Fields} {name : String} (v : Json), name ∉ keys fs → fs.set name v = fs ++ [(name, v)]
  | [], _, _, _ => rfl
  | (k, old) :: fs, name, v, absent => by
    obtain ⟨other, later⟩ := not_or.mp (mt List.mem_cons.mpr absent)
    rw [set, if_neg (Ne.symm other), set_absent v later]
    rfl

/-- Where no name is repeated, no write is lost. -/
theorem ofWrites_eq {fs : Fields} (distinct : (keys fs).Nodup) : ofWrites fs = fs := by
  have steps : ∀ (fs done : Fields), (keys (done ++ fs)).Nodup →
      fs.foldl (fun fs f => fs.set f.1 f.2) done = done ++ fs := by
    intro fs
    induction fs with
    | nil => intro done _; simp
    | cons f fs ih =>
      intro done distinct
      obtain ⟨k, v⟩ := f
      have new : k ∉ keys done := by
        intro old
        rw [keys, List.map_append] at distinct
        exact (List.nodup_append.mp distinct).2.2 k old k (by simp) rfl
      rw [List.foldl_cons]
      dsimp only
      rw [set_absent v new, ih _ (by simpa using distinct), List.append_assoc]
      rfl
  exact steps fs [] distinct

end Fields

namespace Json

/-! ## Values that can be read back -/

mutual
/-- Every number in a value is an integer that fits into 64 bits, with a sign or without one. -/
def Integral : Json → Prop
  | .int n => leastInt64 ≤ n ∧ n < twoTo 64
  | .float _ => False
  | .arr xs => IntegralItems xs
  | .obj fs => IntegralFields fs
  | _ => True
def IntegralItems : List Json → Prop
  | [] => True
  | x :: xs => x.Integral ∧ IntegralItems xs
def IntegralFields : List (String × Json) → Prop
  | [] => True
  | (_, v) :: fs => v.Integral ∧ IntegralFields fs
end

structure Readable (v : Json) : Prop where
  tidy : v.Tidy
  integral : v.Integral
  shallow : v.depth ≤ Reader.maxDepth

/-! ## Writing -/

/-- The blanks of a written value: inside of brackets, and around commas and colons. -/
structure Spacing where
  opened : List Char
  closing : List Char
  beforeComma : List Char
  afterComma : List Char
  beforeColon : List Char
  afterColon : List Char
  blank : ∀ c ∈ opened ++ closing ++ beforeComma ++ afterComma ++ beforeColon ++ afterColon,
    Reader.isSpace c = true

namespace Spacing

def compact : Spacing := ⟨[], [], [], [], [], [], by simp⟩

variable (l : Spacing)

def comma : List Char := l.beforeComma ++ ',' :: l.afterComma
def colon : List Char := l.beforeColon ++ ':' :: l.afterColon

end Spacing

mutual
/-- A value as it is written with its names in a style of their own. -/
def write (l : Spacing) (name : String → List Char) : Json → List Char
  | .arr [] => '[' :: (l.opened ++ [']'])
  | .arr (x :: xs) => '[' :: (l.opened ++ (write l name x ++ writeItems l name xs))
  | .obj [] => '{' :: (l.opened ++ ['}'])
  | .obj ((k, v) :: fs) =>
    '{' :: (l.opened ++ (name k ++ (l.colon ++ (write l name v ++ writeFields l name fs))))
  | v => chars v
/-- The items after the first one, with the closing bracket. -/
def writeItems (l : Spacing) (name : String → List Char) : List Json → List Char
  | [] => l.closing ++ [']']
  | x :: xs => l.comma ++ (write l name x ++ writeItems l name xs)
/-- The fields after the first one, with the closing brace. -/
def writeFields (l : Spacing) (name : String → List Char) : List (String × Json) → List Char
  | [] => l.closing ++ ['}']
  | (k, v) :: fs => l.comma ++ (name k ++ (l.colon ++ (write l name v ++ writeFields l name fs)))
end

mutual
theorem write_compact : ∀ v : Json, write .compact stringChars v = chars v
  | .arr [] => rfl
  | .arr (x :: xs) => by
    rw [write, chars, write_compact x, writeItems_compact xs]
    rfl
  | .obj [] => rfl
  | .obj ((k, v) :: fs) => by
    rw [write, chars, write_compact v, writeFields_compact fs]
    rfl
  | .null | .bool _ | .int _ | .float _ | .str _ => by simp [write]
theorem writeItems_compact : ∀ xs : List Json, writeItems .compact stringChars xs = itemChars xs
  | [] => rfl
  | x :: xs => by
    rw [writeItems, itemChars, write_compact x, writeItems_compact xs]
    rfl
theorem writeFields_compact : ∀ fs : List (String × Json), writeFields .compact stringChars fs = fieldChars fs
  | [] => rfl
  | (k, v) :: fs => by
    rw [writeFields, fieldChars, write_compact v, writeFields_compact fs]
    rfl
end

/-- Arrays and objects, which are written between brackets. -/
def Bracketed : Json → Prop
  | .arr _ | .obj _ => True
  | _ => False

section
variable (l : Spacing) (name : String → List Char)

theorem write_first {v : Json} (bracketed : v.Bracketed) :
    ∃ c rest, write l name v = c :: rest ∧ (c = '[' ∨ c = '{') := by
  cases v with
  | arr xs => cases xs <;> exact ⟨'[', _, rfl, .inl rfl⟩
  | obj fs => cases fs <;> exact ⟨'{', _, rfl, .inr rfl⟩
  | null | bool | int | float | str => exact bracketed.elim

theorem writeItems_last : ∀ xs : List Json, ∃ front, writeItems l name xs = front ++ [']']
  | [] => ⟨l.closing, rfl⟩
  | x :: xs => by
    obtain ⟨front, last⟩ := writeItems_last xs
    exact ⟨l.comma ++ (write l name x ++ front), by rw [writeItems, last]; simp only [List.append_assoc]⟩

theorem writeFields_last : ∀ fs : List (String × Json), ∃ front, writeFields l name fs = front ++ ['}']
  | [] => ⟨l.closing, rfl⟩
  | (k, v) :: fs => by
    obtain ⟨front, last⟩ := writeFields_last fs
    exact ⟨l.comma ++ (name k ++ (l.colon ++ (write l name v ++ front))),
      by rw [writeFields, last]; simp only [List.append_assoc]⟩

theorem write_last {v : Json} (bracketed : v.Bracketed) :
    ∃ front c, write l name v = front ++ [c] ∧ (c = ']' ∨ c = '}') := by
  cases v with
  | arr xs => cases xs with
    | nil => exact ⟨'[' :: l.opened, ']', rfl, .inl rfl⟩
    | cons x xs =>
      obtain ⟨front, last⟩ := writeItems_last l name xs
      exact ⟨'[' :: (l.opened ++ (write l name x ++ front)), ']',
        by rw [write, last]; simp only [List.append_assoc, List.cons_append], .inl rfl⟩
  | obj fs => cases fs with
    | nil => exact ⟨'{' :: l.opened, '}', rfl, .inr rfl⟩
    | cons f fs =>
      obtain ⟨k, v⟩ := f
      obtain ⟨front, last⟩ := writeFields_last l name fs
      exact ⟨'{' :: (l.opened ++ (name k ++ (l.colon ++ (write l name v ++ front)))), '}',
        by rw [write, last]; simp only [List.append_assoc, List.cons_append], .inr rfl⟩
  | null | bool | int | float | str => exact bracketed.elim

end

/-- An integer is written with digits, and perhaps a minus. -/
theorem sign_of_integer {n : Int} {c : Char} (member : c ∈ chars (.int n)) : c = '-' ∨ Text.isDigit c = true := by
  rw [chars, Int.toString_eq_repr, Int.repr_eq_if] at member
  by_cases sign : 0 ≤ n
  · rw [if_pos sign, Nat.toList_repr] at member
    exact .inr (Text.toDigits_digit member)
  · rw [if_neg sign, String.toList_append, Nat.toList_repr] at member
    exact (List.mem_cons.mp member).imp_right Text.toDigits_digit

/-! ## Strings -/

namespace Reader

theorem hexQuad?_low {n : Nat} (low : n < 0x20) :
    hexQuad? '0' '0' ((Nat.toDigits 16 (n / 16 % 16)).headD '0') ((Nat.toDigits 16 (n % 16)).headD '0') =
      some n := by
  have all : ∀ n < 0x20, hexQuad? '0' '0' ((Nat.toDigits 16 (n / 16 % 16)).headD '0')
      ((Nat.toDigits 16 (n % 16)).headD '0') = some n := by decide
  exact all n low

theorem hexQuad?_other {a b c : Char} {n : Nat} (hex : hexQuad? '0' '0' a b = some n) (other : hexValue? c = none) :
    a ≠ c ∧ b ≠ c := by
  constructor
  all_goals
    rintro rfl
    simp [hexQuad?, other] at hex

/-- What is written for one character of a string. -/
inductive Unit : Char → List Char → Prop
  | plain {c : Char} (quote : c ≠ '"') (backslash : c ≠ '\\') (shown : 0x20 ≤ c.toNat) : Unit c [c]
  | short {c e : Char} (names : shortEscape? e = some c) : Unit c ['\\', e]
  | control {c a b : Char} (low : c.toNat < 0x20) (hex : hexQuad? '0' '0' a b = some c.toNat) :
    Unit c ['\\', 'u', '0', '0', a, b]

theorem escapeChar_unit (c : Char) : Unit c (escapeChar c) := by
  unfold escapeChar
  by_cases quote : c = '"'
  · rw [if_pos quote]
    exact .short (by rw [quote]; rfl)
  rw [if_neg quote]
  by_cases backslash : c = '\\'
  · rw [if_pos backslash]
    exact .short (by rw [backslash]; rfl)
  rw [if_neg backslash]
  by_cases feed : c = '\n'
  · rw [if_pos feed]
    exact .short (by rw [feed]; rfl)
  rw [if_neg feed]
  by_cases ret : c = '\r'
  · rw [if_pos ret]
    exact .short (by rw [ret]; rfl)
  rw [if_neg ret]
  by_cases tab : c = '\t'
  · rw [if_pos tab]
    exact .short (by rw [tab]; rfl)
  rw [if_neg tab]
  by_cases back : c = '\x08'
  · rw [if_pos back]
    exact .short (by rw [back]; rfl)
  rw [if_neg back]
  by_cases form : c = '\x0c'
  · rw [if_pos form]
    exact .short (by rw [form]; rfl)
  rw [if_neg form]
  by_cases low : c.toNat < 0x20
  · rw [if_pos low]
    exact .control low (hexQuad?_low low)
  · rw [if_neg low]
    exact .plain quote backslash (Nat.not_lt.mp low)

theorem stringRest_unit {c : Char} {unit : List Char} (written : Unit c unit) (rest : List Char) :
    stringRest (unit ++ rest) = (stringRest rest).map fun p => (c :: p.1, p.2) := by
  cases written with
  | plain quote backslash shown =>
    rw [List.singleton_append, stringRest]
    · rw [if_neg backslash, if_neg (Nat.not_lt.mpr shown)]
    · exact quote
    · rintro _ _ _ _ _ rfl
      exact absurd rfl backslash
    · rintro _ _ rfl
      exact absurd rfl backslash
  | @short e names =>
    have other : e ≠ 'u' := by
      rintro rfl
      cases names
    rw [List.cons_append, List.singleton_append, stringRest]
    · rw [names]
    · rintro _ _ _ _ _ rfl
      exact absurd rfl other
  | @control a b low hex =>
    have small : ¬ (0xD800 ≤ c.toNat ∧ c.toNat < 0xDC00) ∧ ¬ (0xDC00 ≤ c.toNat ∧ c.toNat < 0xE000) := by omega
    simp only [List.cons_append, List.nil_append]
    rw [stringRest, hex]
    simp only [small, ↓reduceIte, Char.ofNat_toNat]

theorem stringRest_string (s : List Char) (rest : List Char) :
    stringRest (s.flatMap escapeChar ++ '"' :: rest) = .ok (s, rest) := by
  induction s with
  | nil => rw [List.flatMap_nil, List.nil_append, stringRest]
  | cons c s ih =>
    rw [List.flatMap_cons, List.append_assoc, stringRest_unit (escapeChar_unit c), ih]
    rfl

/-! ## Numbers -/

/-- No number goes on into this text. -/
def Ends (cs : List Char) : Prop := ∀ c ∈ cs.head?, Text.isDigit c = false ∧ c ≠ '.' ∧ c ≠ 'e' ∧ c ≠ 'E'

theorem extend_digits : ∀ {ds : List Char} {sig : Nat}, Nat.ofDigitChars 10 ds sig < twoTo 64 →
    extend sig ds = (Nat.ofDigitChars 10 ds sig, 0)
  | [], _, _ => rfl
  | d :: ds, sig, fits => by
    rw [Nat.ofDigitChars_cons, Nat.mul_comm] at fits ⊢
    have next : sig * 10 + (d.toNat - 48) < twoTo 64 := by
      apply Nat.lt_of_le_of_lt _ fits
      rw [Nat.ofDigitChars_eq_ofDigitChars_zero]
      exact Nat.le_add_right_of_le (Nat.le_mul_of_pos_left _ (Nat.pow_pos (by decide)))
    rw [extend]
    exact (if_pos next).trans (extend_digits fits)

theorem numberRest_natural (negative : Bool) {n : Nat} {rest : List Char} (fits : n < twoTo 64) (ends : Ends rest) :
    numberRest negative (Nat.toDigits 10 n ++ rest) =
      if !negative then .ok (.int n, rest)
      else if n = 0 ∨ twoTo 63 < n then .ok (.float (.ofFloat (-(Float.ofNat n))), rest)
      else .ok (.int (-n), rest) := by
  obtain ⟨run, tail⟩ := Text.run_stops (fun c member => Text.toDigits_digit (n := n) member)
    fun c first => (ends c first).1
  have read : extend 0 (Nat.toDigits 10 n) = (n, 0) := by
    have value : Nat.ofDigitChars 10 (Nat.toDigits 10 n) 0 = n := Nat.ofDigitChars_ten_toDigits
    rw [extend_digits (by rw [value]; exact fits), value]
  obtain ⟨d, ds, digits⟩ := List.exists_cons_of_ne_nil (Nat.toDigits_ne_nil (n := n) (b := 10))
  have noZero : ¬ (d = '0' ∧ ¬ ds.isEmpty) := by
    rintro ⟨rfl, more⟩
    rcases Nat.eq_zero_or_pos n with rfl | positive
    · rw [Nat.toDigits_zero] at digits
      cases digits
      exact more rfl
    · obtain ⟨e, es, same, other⟩ := Text.toDigits_first positive
      rw [digits] at same
      exact other (List.cons.inj same).1.symm
  rw [numberRest, run, tail]
  simp only [digits, noZero, ↓reduceIte]
  rw [← digits, read]
  cases rest with
  | nil => rfl
  | cons c rest =>
    obtain ⟨_, dot, small, capital⟩ := ends c rfl
    split
    · rename_i same
      exact absurd (List.cons.inj same).1 dot
    · rename_i same
      exact absurd (List.cons.inj same).1 small
    · rename_i same
      exact absurd (List.cons.inj same).1 capital
    · rfl

/-! ## Values -/

theorem skip_blanks {blanks : List Char} (blank : ∀ c ∈ blanks, isSpace c = true) (cs : List Char) :
    skip (blanks ++ cs) = skip cs := by
  unfold skip
  exact List.dropWhile_append_of_pos blank

theorem skip_sign {c : Char} (sign : isSpace c = false) (cs : List Char) : skip (c :: cs) = c :: cs := by
  unfold skip
  exact List.dropWhile_cons_of_neg (by rw [sign]; exact Bool.false_ne_true)

section
variable {fuel depth : Nat} {blanks : List Char}

theorem value_blanks (blank : ∀ c ∈ blanks, isSpace c = true) (cs : List Char) :
    value (fuel + 1) depth (blanks ++ cs) = value (fuel + 1) depth cs := by
  rw [value, value, skip_blanks blank]

theorem fields_blanks (blank : ∀ c ∈ blanks, isSpace c = true) (cs : List Char) :
    fields (fuel + 1) depth (blanks ++ cs) = fields (fuel + 1) depth cs := by
  rw [fields, fields, skip_blanks blank]

theorem isSpace_digit {d : Char} (digit : Text.isDigit d = true) : isSpace d = false := by
  simp [isSpace, Text.ne_of_class digit (show Text.isDigit ' ' = false by decide),
    Text.ne_of_class digit (show Text.isDigit '\n' = false by decide),
    Text.ne_of_class digit (show Text.isDigit '\t' = false by decide),
    Text.ne_of_class digit (show Text.isDigit '\r' = false by decide)]

theorem value_digit {d : Char} (digit : Text.isDigit d = true) (cs : List Char) :
    value (fuel + 1) depth (d :: cs) = numberRest false (d :: cs) := by
  rw [value, skip_sign (isSpace_digit digit)]
  split
  case h_9 c r _ _ _ _ _ _ _ same =>
    cases same
    exact if_pos digit
  all_goals
    rename_i same
    cases same
  all_goals cases digit

theorem value_minus (cs : List Char) : value (fuel + 1) depth ('-' :: cs) = numberRest true cs := by
  rw [value, skip_sign (by decide)]
  rfl

theorem value_integer {n : Int} {rest : List Char} (fits : leastInt64 ≤ n ∧ n < twoTo 64) (ends : Ends rest) :
    value (fuel + 1) depth (chars (.int n) ++ rest) = .ok (.int n, rest) := by
  obtain ⟨least, greatest⟩ : -9223372036854775808 ≤ n ∧ n < 18446744073709551616 := fits
  have most : twoTo 63 = 9223372036854775808 ∧ twoTo 64 = 18446744073709551616 := by decide
  rw [chars, Int.toString_eq_repr, Int.repr_eq_if]
  by_cases sign : 0 ≤ n
  · obtain ⟨m, rfl⟩ := Int.eq_ofNat_of_zero_le sign
    obtain ⟨d, ds, digits⟩ := List.exists_cons_of_ne_nil (Nat.toDigits_ne_nil (n := m) (b := 10))
    have digit : Text.isDigit d = true := Text.toDigits_digit (n := m) (digits ▸ List.mem_cons_self)
    have number := numberRest_natural false (n := m) (by omega) ends
    rw [digits] at number
    rw [if_pos sign, Int.toNat_natCast, Nat.toList_repr, digits, List.cons_append, value_digit digit]
    exact number
  · obtain ⟨m, size⟩ := Int.eq_ofNat_of_zero_le (show 0 ≤ -n by omega)
    have number := numberRest_natural true (n := m) (by omega) ends
    have fits : ¬ (m = 0 ∨ twoTo 63 < m) := by omega
    have same : n = -m := by omega
    rw [if_neg sign, size, Int.toNat_natCast, String.toList_append, Nat.toList_repr, List.append_assoc]
    change value (fuel + 1) depth ('-' :: (Nat.toDigits 10 m ++ rest)) = _
    rw [value_minus, number, if_neg (by decide), if_neg fits, same]

theorem value_quote (cs : List Char) :
    value (fuel + 1) depth ('"' :: cs) = (stringRest cs).map fun p => (.str (.ofList p.1), p.2) := by
  rw [value, skip_sign (by decide)]
  rfl

theorem value_bracket (cs : List Char) : value (fuel + 1) (depth + 1) ('[' :: cs) = match skip cs with
    | ']' :: rest => .ok (.arr [], rest)
    | rest => (items fuel depth rest).map fun p => (.arr p.1, p.2) := by
  rw [value, skip_sign (by decide)]
  rfl

theorem value_brace (cs : List Char) : value (fuel + 1) (depth + 1) ('{' :: cs) = match skip cs with
    | '}' :: rest => .ok (.obj [], rest)
    | rest => (fields fuel depth rest).map fun p => (.obj (Fields.ofWrites p.1), p.2) := by
  rw [value, skip_sign (by decide)]
  rfl

theorem value_string (s : String) (rest : List Char) :
    value (fuel + 1) depth (stringChars s ++ rest) = .ok (.str s, rest) := by
  have written : stringChars s ++ rest = '"' :: (s.toList.flatMap escapeChar ++ '"' :: rest) := by
    simp [stringChars]
  rw [written, value_quote, stringRest_string]
  simp [Except.map]

theorem value_noItems (blank : ∀ c ∈ blanks, isSpace c = true) (rest : List Char) :
    value (fuel + 1) (depth + 1) ('[' :: (blanks ++ ']' :: rest)) = .ok (.arr [], rest) := by
  rw [value_bracket, skip_blanks blank, skip_sign (by decide)]
  rfl

theorem value_noFields (blank : ∀ c ∈ blanks, isSpace c = true) (rest : List Char) :
    value (fuel + 1) (depth + 1) ('{' :: (blanks ++ '}' :: rest)) = .ok (.obj [], rest) := by
  rw [value_brace, skip_blanks blank, skip_sign (by decide)]
  rfl

section
variable {c : Char} {cs : List Char}

/-- Behind a bracket that is not closed at once, items follow. -/
theorem value_items (sign : isSpace c = false) (open_ : c ≠ ']') (blank : ∀ c ∈ blanks, isSpace c = true) :
    value (fuel + 1) (depth + 1) ('[' :: (blanks ++ c :: cs)) =
      (items fuel depth (c :: cs)).map fun p => (.arr p.1, p.2) := by
  rw [value_bracket, skip_blanks blank, skip_sign sign]
  split
  · rename_i same
    exact absurd (List.cons.inj same).1 open_
  · rfl

/-- Behind a brace that is not closed at once, fields follow. -/
theorem value_fields (sign : isSpace c = false) (open_ : c ≠ '}') (blank : ∀ c ∈ blanks, isSpace c = true) :
    value (fuel + 1) (depth + 1) ('{' :: (blanks ++ c :: cs)) =
      (fields fuel depth (c :: cs)).map fun p => (.obj (Fields.ofWrites p.1), p.2) := by
  rw [value_brace, skip_blanks blank, skip_sign sign]
  split
  · rename_i same
    exact absurd (List.cons.inj same).1 open_
  · rfl

end

section
variable {cs rest : List Char} {x v : Json}

/-- What is read behind an item. -/
def itemsBehind (fuel depth : Nat) (x : Json) (cs : List Char) : Except Stop (List Json × List Char) :=
  match skip cs with
  | ',' :: more => (items fuel depth more).bind fun p => .ok (x :: p.1, p.2)
  | ']' :: more => .ok ([x], more)
  | more => .error (if more.isEmpty then .ended else .unexpected, more)

theorem items_read (read : value fuel depth cs = .ok (x, rest)) :
    items (fuel + 1) depth cs = itemsBehind fuel depth x rest := by
  rw [items, read]
  rfl

theorem itemsBehind_last (blank : ∀ c ∈ blanks, isSpace c = true) :
    itemsBehind fuel depth x (blanks ++ ']' :: rest) = .ok ([x], rest) := by
  rw [itemsBehind, skip_blanks blank, skip_sign (by decide)]
  rfl

theorem itemsBehind_next (blank : ∀ c ∈ blanks, isSpace c = true) {more : List Char} {xs : List Json}
    (others : items fuel depth more = .ok (xs, rest)) :
    itemsBehind fuel depth x (blanks ++ ',' :: more) = .ok (x :: xs, rest) := by
  rw [itemsBehind, skip_blanks blank, skip_sign (by decide)]
  exact congrArg (Except.bind · fun p => .ok (x :: p.1, p.2)) others

/-- What is read behind a field. -/
def fieldsBehind (fuel depth : Nat) (k : String) (v : Json) (cs : List Char) :
    Except Stop (List (String × Json) × List Char) :=
  match skip cs with
  | ',' :: more => (fields fuel depth more).bind fun p => .ok ((k, v) :: p.1, p.2)
  | '}' :: more => .ok ([(k, v)], more)
  | more => .error (if more.isEmpty then .ended else .unexpected, more)

/-- What is read behind the name of a field. -/
def valueBehind (fuel depth : Nat) (k : String) (cs : List Char) :
    Except Stop (List (String × Json) × List Char) :=
  match skip cs with
  | ':' :: more => (value fuel depth more).bind fun p => fieldsBehind fuel depth k p.1 p.2
  | more => .error (if more.isEmpty then .ended else .unexpected, more)

theorem fields_quote (cs : List Char) : fields (fuel + 1) depth ('"' :: cs) =
    (stringRest cs).bind fun p => valueBehind fuel depth (.ofList p.1) p.2 := by
  rw [fields, skip_sign (by decide)]
  rfl

theorem valueBehind_colon {k : String} (blank : ∀ c ∈ blanks, isSpace c = true) (cs : List Char) :
    valueBehind fuel depth k (blanks ++ ':' :: cs) =
      (value fuel depth cs).bind fun p => fieldsBehind fuel depth k p.1 p.2 := by
  rw [valueBehind, skip_blanks blank, skip_sign (by decide)]
  rfl

theorem fieldsBehind_last {k : String} (blank : ∀ c ∈ blanks, isSpace c = true) :
    fieldsBehind fuel depth k v (blanks ++ '}' :: rest) = .ok ([(k, v)], rest) := by
  rw [fieldsBehind, skip_blanks blank, skip_sign (by decide)]
  rfl

theorem fieldsBehind_next {k : String} (blank : ∀ c ∈ blanks, isSpace c = true) {more : List Char}
    {fs : List (String × Json)} (others : fields fuel depth more = .ok (fs, rest)) :
    fieldsBehind fuel depth k v (blanks ++ ',' :: more) = .ok ((k, v) :: fs, rest) := by
  rw [fieldsBehind, skip_blanks blank, skip_sign (by decide)]
  exact congrArg (Except.bind · fun p => .ok ((k, v) :: p.1, p.2)) others

/-- A name between quotes, a colon and a value are read. -/
theorem fields_read {k : String} (blank : ∀ c ∈ blanks, isSpace c = true)
    (read : value fuel depth cs = .ok (v, rest)) :
    fields (fuel + 1) depth (stringChars k ++ (blanks ++ ':' :: cs)) = fieldsBehind fuel depth k v rest := by
  have written : stringChars k ++ (blanks ++ ':' :: cs) =
      '"' :: (k.toList.flatMap escapeChar ++ '"' :: (blanks ++ ':' :: cs)) := by
    simp [stringChars]
  rw [written, fields_quote, stringRest_string]
  change valueBehind fuel depth (.ofList k.toList) (blanks ++ ':' :: cs) = _
  rw [String.ofList_toList, valueBehind_colon blank, read]
  rfl

end

end

theorem Ends.blanks {blanks cs : List Char} (blank : ∀ c ∈ blanks, isSpace c = true) (ends : Ends cs) :
    Ends (blanks ++ cs) := by
  cases blanks with
  | nil => exact ends
  | cons c blanks =>
    rintro _ ⟨⟩
    have first : isSpace c = true := blank c List.mem_cons_self
    unfold isSpace at first
    simp only [Bool.or_eq_true, decide_eq_true_eq] at first
    rcases first with ((rfl | rfl) | rfl) | rfl <;> decide

end Reader

namespace Spacing
variable (l : Spacing)

theorem opened_blank : ∀ c ∈ l.opened, Reader.isSpace c = true := fun c member => l.blank c (by simp [member])
theorem closing_blank : ∀ c ∈ l.closing, Reader.isSpace c = true := fun c member => l.blank c (by simp [member])
theorem beforeComma_blank : ∀ c ∈ l.beforeComma, Reader.isSpace c = true :=
  fun c member => l.blank c (by simp [member])
theorem afterComma_blank : ∀ c ∈ l.afterComma, Reader.isSpace c = true :=
  fun c member => l.blank c (by simp [member])
theorem beforeColon_blank : ∀ c ∈ l.beforeColon, Reader.isSpace c = true :=
  fun c member => l.blank c (by simp [member])
theorem afterColon_blank : ∀ c ∈ l.afterColon, Reader.isSpace c = true :=
  fun c member => l.blank c (by simp [member])

end Spacing

/-! ## Reading back -/

section
variable {l : Spacing} {name : String → List Char} {rest : List Char}

theorem comma_ends (cs : List Char) : Reader.Ends (l.comma ++ cs) := by
  rw [Spacing.comma, List.append_assoc]
  exact .blanks l.beforeComma_blank (by rintro _ ⟨⟩; decide)

theorem writeItems_ends (xs : List Json) (rest : List Char) : Reader.Ends (writeItems l name xs ++ rest) := by
  cases xs with
  | nil =>
    rw [writeItems, List.append_assoc]
    exact .blanks l.closing_blank (by rintro _ ⟨⟩; decide)
  | cons x xs =>
    rw [writeItems, List.append_assoc]
    exact comma_ends _

theorem writeFields_ends (fs : Fields) (rest : List Char) : Reader.Ends (writeFields l name fs ++ rest) := by
  cases fs with
  | nil =>
    rw [writeFields, List.append_assoc]
    exact .blanks l.closing_blank (by rintro _ ⟨⟩; decide)
  | cons f fs =>
    obtain ⟨k, v⟩ := f
    rw [writeFields, List.append_assoc]
    exact comma_ends _

/-- A written value begins with no blank and no closing bracket. -/
theorem write_opens (l : Spacing) (name : String → List Char) {v : Json} (integral : v.Integral) :
    ∃ c cs, write l name v = c :: cs ∧ Reader.isSpace c = false ∧ c ≠ ']' := by
  cases v with
  | null => exact ⟨'n', _, rfl, by decide⟩
  | bool b => cases b with
    | true => exact ⟨'t', _, rfl, by decide⟩
    | false => exact ⟨'f', _, rfl, by decide⟩
  | int n =>
    have digit (m : Nat) : ∃ c cs, Nat.toDigits 10 m = c :: cs ∧ Reader.isSpace c = false ∧ c ≠ ']' := by
      obtain ⟨d, ds, digits⟩ := List.exists_cons_of_ne_nil (Nat.toDigits_ne_nil (n := m) (b := 10))
      have digit : Text.isDigit d = true := Text.toDigits_digit (n := m) (digits ▸ List.mem_cons_self)
      exact ⟨d, ds, digits, Reader.isSpace_digit digit, Text.ne_of_class digit (by decide)⟩
    by_cases sign : 0 ≤ n
    · simpa [write, chars, Int.toString_eq_repr, Int.repr_eq_if, sign] using digit n.toNat
    · exact ⟨'-', Nat.toDigits 10 (-n).toNat,
        by simp [write, chars, Int.toString_eq_repr, Int.repr_eq_if, sign], by decide⟩
  | float x => exact integral.elim
  | str s => exact ⟨'"', _, rfl, by decide⟩
  | arr xs => cases xs <;> exact ⟨'[', _, rfl, by decide⟩
  | obj fs => cases fs <;> exact ⟨'{', _, rfl, by decide⟩

end

mutual
theorem value_write (l : Spacing) : ∀ (v : Json) (fuel depth : Nat) (rest : List Char), v.Tidy → v.Integral →
    v.depth ≤ depth → 2 * (write l stringChars v).length ≤ fuel + 1 → Reader.Ends rest →
    Reader.value (fuel + 1) depth (write l stringChars v ++ rest) = .ok (v, rest)
  | .null, _, _, _, _, _, _, _, _ => by rw [Reader.value]; rfl
  | .bool true, _, _, _, _, _, _, _, _ => by rw [Reader.value]; rfl
  | .bool false, _, _, _, _, _, _, _, _ => by rw [Reader.value]; rfl
  | .int n, _, _, _, _, integral, _, _, ends => Reader.value_integer integral ends
  | .float _, _, _, _, _, integral, _, _, _ => integral.elim
  | .str s, _, _, rest, _, _, _, _, _ => Reader.value_string s rest
  | .arr [], _, depth, rest, _, _, shallow, _, _ => by
    obtain ⟨d, rfl⟩ : ∃ d, depth = d + 1 := Nat.exists_eq_add_one.mpr shallow
    rw [write, List.cons_append, List.append_assoc]
    exact Reader.value_noItems l.opened_blank rest
  | .arr (x :: xs), fuel, depth, rest, tidy, integral, shallow, enough, _ => by
    simp only [Json.depth, depthItems] at shallow
    simp only [write, List.length_cons, List.length_append] at enough
    obtain ⟨c, cs, opens, sign, open_⟩ := write_opens l stringChars integral.1
    have some_ := congrArg List.length opens
    rw [List.length_cons] at some_
    obtain ⟨d, rfl⟩ : ∃ d, depth = d + 1 := ⟨depth - 1, by omega⟩
    obtain ⟨f, rfl⟩ : ∃ f, fuel = f + 2 := ⟨fuel - 2, by omega⟩
    have first := value_write l x f d (writeItems l stringChars xs ++ rest) tidy.1 integral.1
      (by omega) (by omega) (writeItems_ends xs rest)
    have others := items_write l xs (f + 1) d x rest tidy.2 integral.2 (by omega) (by omega)
    have read := (Reader.items_read first).trans others
    rw [write, List.cons_append, List.append_assoc, List.append_assoc]
    rw [opens] at read ⊢
    rw [List.cons_append, Reader.value_items sign open_ l.opened_blank]
    exact congrArg (Except.map fun p => (Json.arr p.1, p.2)) read
  | .obj [], _, depth, rest, _, _, shallow, _, _ => by
    obtain ⟨d, rfl⟩ : ∃ d, depth = d + 1 := Nat.exists_eq_add_one.mpr shallow
    rw [write, List.cons_append, List.append_assoc]
    exact Reader.value_noFields l.opened_blank rest
  | .obj ((k, v) :: fs), fuel, depth, rest, tidy, integral, shallow, enough, _ => by
    simp only [Json.depth, depthFields] at shallow
    simp only [write, stringChars, Spacing.colon, List.length_cons, List.length_append] at enough
    obtain ⟨d, rfl⟩ : ∃ d, depth = d + 1 := ⟨depth - 1, by omega⟩
    obtain ⟨f, rfl⟩ : ∃ f, fuel = f + 2 := ⟨fuel - 2, by omega⟩
    have first := value_write l v f d (writeFields l stringChars fs ++ rest) tidy.2.1 integral.1
      (by omega) (by omega) (writeFields_ends fs rest)
    have others := fields_write l fs (f + 1) d k v rest tidy.2.2 integral.2 (by omega) (by omega)
    rw [← Reader.value_blanks l.afterColon_blank] at first
    have read := (Reader.fields_read (k := k) l.beforeColon_blank first).trans others
    have distinct : Fields.ofWrites ((k, v) :: fs) = (k, v) :: fs := Fields.ofWrites_eq tidy.1
    have quoted : stringChars k = '"' :: (k.toList.flatMap escapeChar ++ ['"']) := rfl
    rw [write, Spacing.colon]
    simp only [List.cons_append, List.append_assoc, quoted] at read ⊢
    rw [Reader.value_fields (by decide) (by decide) l.opened_blank, read]
    exact congrArg (fun fs => Except.ok (Json.obj fs, rest)) distinct
theorem items_write (l : Spacing) : ∀ (xs : List Json) (fuel depth : Nat) (x : Json) (rest : List Char),
    TidyItems xs → IntegralItems xs → depthItems xs ≤ depth → 2 * (writeItems l stringChars xs).length ≤ fuel →
    Reader.itemsBehind fuel depth x (writeItems l stringChars xs ++ rest) = .ok (x :: xs, rest)
  | [], fuel, depth, x, rest, _, _, _, _ => by
    rw [writeItems, List.append_assoc]
    exact Reader.itemsBehind_last l.closing_blank
  | y :: ys, fuel, depth, x, rest, tidy, integral, shallow, enough => by
    simp only [depthItems] at shallow
    simp only [writeItems, Spacing.comma, List.length_cons, List.length_append] at enough
    obtain ⟨f, rfl⟩ : ∃ f, fuel = f + 2 := ⟨fuel - 2, by omega⟩
    have first := value_write l y f depth (writeItems l stringChars ys ++ rest) tidy.1 integral.1
      (by omega) (by omega) (writeItems_ends ys rest)
    have others := items_write l ys (f + 1) depth y rest tidy.2 integral.2 (by omega) (by omega)
    rw [← Reader.value_blanks l.afterComma_blank] at first
    have read := (Reader.items_read first).trans others
    rw [writeItems, Spacing.comma, List.append_assoc, List.append_assoc, List.append_assoc]
    exact Reader.itemsBehind_next l.beforeComma_blank read
theorem fields_write (l : Spacing) : ∀ (fs : List (String × Json)) (fuel depth : Nat) (k : String) (v : Json)
    (rest : List Char), TidyFields fs → IntegralFields fs → depthFields fs ≤ depth →
    2 * (writeFields l stringChars fs).length ≤ fuel →
    Reader.fieldsBehind fuel depth k v (writeFields l stringChars fs ++ rest) = .ok ((k, v) :: fs, rest)
  | [], fuel, depth, k, v, rest, _, _, _, _ => by
    rw [writeFields, List.append_assoc]
    exact Reader.fieldsBehind_last l.closing_blank
  | (k', w) :: fs, fuel, depth, k, v, rest, tidy, integral, shallow, enough => by
    simp only [depthFields] at shallow
    simp only [writeFields, stringChars, Spacing.comma, Spacing.colon, List.length_cons, List.length_append] at enough
    obtain ⟨f, rfl⟩ : ∃ f, fuel = f + 2 := ⟨fuel - 2, by omega⟩
    have first := value_write l w f depth (writeFields l stringChars fs ++ rest) tidy.1 integral.1
      (by omega) (by omega) (writeFields_ends fs rest)
    have others := fields_write l fs (f + 1) depth k' w rest tidy.2 integral.2 (by omega) (by omega)
    rw [← Reader.value_blanks l.afterColon_blank] at first
    have read := (Reader.fields_read (k := k') l.beforeColon_blank first).trans others
    rw [← Reader.fields_blanks l.afterComma_blank] at read
    rw [writeFields, Spacing.comma, Spacing.colon]
    simp only [List.append_assoc, List.cons_append] at read ⊢
    exact Reader.fieldsBehind_next l.beforeComma_blank read
end

/-- A value that can be read back is read back, whatever the blanks between its signs. -/
theorem parse_write (l : Spacing) {v : Json} (readable : v.Readable) :
    parse (.ofList (write l stringChars v)) = .ok v := by
  have read := value_write l v (2 * (write l stringChars v).length + 1) Reader.maxDepth [] readable.tidy
    readable.integral readable.shallow (by omega) (by rintro _ ⟨⟩)
  rw [List.append_nil] at read
  rw [parse, Json.read, String.toList_ofList, Reader.whole, read]
  rfl

theorem parse_text {v : Json} (readable : v.Readable) : parse v.text = .ok v := by
  rw [text, ← write_compact]
  exact parse_write .compact readable

end Json
end PageSpec
