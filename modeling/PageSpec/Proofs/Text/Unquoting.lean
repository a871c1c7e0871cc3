import PageSpec.Proofs.Text.Cutting
import PageSpec.Text.Quoted
/-!
Quoted texts read back. Every quoted character is read back with whatever stands behind it, so a quoted text says
where it ends, and which text it is.
-/
namespace PageSpec.Text

/-! ## Numbers of characters -/

/-- The value of a hexadecimal digit. -/
def hexDigit (c : Char) : Nat := if c.toNat < 58 then c.toNat - 48 else c.toNat - 87
/-- The number that hexadecimal digits write. -/
def hexNumber (cs : List Char) : Nat := cs.foldl (fun n c => n * 16 + hexDigit c) 0

theorem hexDigit_digitChar {d : Nat} (small : d < 16) : hexDigit d.digitChar = d := by
  have each : ∀ d < 16, hexDigit d.digitChar = d := by decide
  exact each d small

theorem hexNumber_toDigits (n : Nat) : hexNumber (Nat.toDigits 16 n) = n := by
  induction n using Nat.strongRecOn with
  | _ n ih =>
    by_cases small : n < 16
    · rw [Nat.toDigits_of_lt_base small]
      exact (Nat.zero_add _).trans (hexDigit_digitChar small)
    · have front := ih (n / 16) (by omega)
      rw [Nat.toDigits_of_base_le (by decide) (by omega), hexNumber, List.foldl_append]
      change hexNumber (Nat.toDigits 16 (n / 16)) * 16 + hexDigit (n % 16).digitChar = n
      rw [front, hexDigit_digitChar (Nat.mod_lt n (by decide))]
      omega

theorem brace_not_mem_toDigits (n : Nat) : '}' ∉ Nat.toDigits 16 n := by
  have other : ∀ d < 16, '}' ≠ d.digitChar := by decide
  induction n using Nat.strongRecOn with
  | _ n ih =>
    by_cases small : n < 16
    · rw [Nat.toDigits_of_lt_base small, List.mem_singleton]
      exact other n small
    · rw [Nat.toDigits_of_base_le (by decide) (by omega), List.mem_append, List.mem_singleton]
      exact not_or.mpr ⟨ih (n / 16) (by omega), other _ (Nat.mod_lt n (by decide))⟩

/-! ## Characters -/

/-- The character that a letter names behind a backslash. -/
def named? : Char → Option Char
  | '"' => some '"'
  | '\\' => some '\\'
  | 'n' => some '\n'
  | 'r' => some '\r'
  | 't' => some '\t'
  | '0' => some '\x00'
  | _ => none

/-- One character from its quoted form, and what stands behind it; none where the text ends. -/
def unquoteChar? : List Char → Option (Char × List Char)
  | '\\' :: 'u' :: '{' :: cs =>
    some (.ofNat (hexNumber (cs.takeWhile (· ≠ '}'))), (cs.dropWhile (· ≠ '}')).drop 1)
  | '\\' :: name :: cs => (named? name).map (·, cs)
  | '"' :: _ => none
  | c :: cs => some (c, cs)
  | [] => none

/-- What is written for a character between quotes. -/
inductive Quoted : Char → List Char → Prop
  | plain {c : Char} (quote : c ≠ '"') (backslash : c ≠ '\\') : Quoted c [c]
  | named {c name : Char} (names : named? name = some c) : Quoted c ['\\', name]
  | numbered (c : Char) : Quoted c ('\\' :: 'u' :: '{' :: (Nat.toDigits 16 c.toNat ++ ['}']))

theorem quoteChar_quoted (c : Char) : Quoted c (quoteChar c) := by
  unfold quoteChar
  by_cases quote : c = '"'
  · rw [if_pos quote, quote]
    exact .named rfl
  rw [if_neg quote]
  by_cases backslash : c = '\\'
  · rw [if_pos backslash, backslash]
    exact .named rfl
  rw [if_neg backslash]
  by_cases feed : c = '\n'
  · rw [if_pos feed, feed]
    exact .named rfl
  rw [if_neg feed]
  by_cases ret : c = '\r'
  · rw [if_pos ret, ret]
    exact .named rfl
  rw [if_neg ret]
  by_cases tab : c = '\t'
  · rw [if_pos tab, tab]
    exact .named rfl
  rw [if_neg tab]
  by_cases nul : c = '\x00'
  · rw [if_pos nul, nul]
    exact .named rfl
  rw [if_neg nul]
  split
  · exact .plain quote backslash
  · split
    · exact .numbered c
    · exact .plain quote backslash

theorem unquoteChar?_quoted {c : Char} {unit : List Char} (written : Quoted c unit) (rest : List Char) :
    unquoteChar? (unit ++ rest) = some (c, rest) := by
  cases written with
  | plain quote backslash =>
    rw [List.singleton_append, unquoteChar?]
    · rintro _ rfl
      exact (backslash rfl).elim
    · rintro _ _ rfl
      exact (backslash rfl).elim
    · exact fun same => quote same
  | @named name names =>
    have other : name ≠ 'u' := by
      rintro rfl
      cases names
    rw [List.cons_append, List.singleton_append, unquoteChar?]
    · rw [names]
      rfl
    · rintro _ rfl
      exact (other rfl).elim
  | numbered =>
    obtain ⟨digits, behind⟩ := before_stop (brace_not_mem_toDigits c.toNat) rest
    have shape : '\\' :: 'u' :: '{' :: (Nat.toDigits 16 c.toNat ++ ['}']) ++ rest =
        '\\' :: 'u' :: '{' :: (Nat.toDigits 16 c.toNat ++ '}' :: rest) := by simp
    rw [shape, unquoteChar?, digits, behind, hexNumber_toDigits, Char.ofNat_toNat]
    rfl

/-! ## Texts -/

theorem unquoteChar?_shorter {cs rest : List Char} {c : Char} (read : unquoteChar? cs = some (c, rest)) :
    rest.length < cs.length := by
  unfold unquoteChar? at read
  split at read
  · rename_i cs
    cases read
    have run := (List.dropWhile_sublist (l := cs) (· ≠ '}')).length_le
    simp only [List.length_drop, List.length_cons]
    omega
  · rename_i name cs _
    obtain ⟨_, _, same⟩ := Option.map_eq_some_iff.mp read
    cases same
    simp only [List.length_cons]
    omega
  · cases read
  · cases read
    exact Nat.lt_succ_self _
  · cases read

/-- A text from its quoted form behind the opening quote, and what stands behind the closing one. -/
def unquote? (cs : List Char) : Option (List Char × List Char) :=
  match _ : unquoteChar? cs with
  | some (c, rest) => (unquote? rest).map fun p => (c :: p.1, p.2)
  | none =>
    match cs with
    | '"' :: rest => some ([], rest)
    | _ => none
termination_by cs.length
decreasing_by exact unquoteChar?_shorter ‹_›

theorem unquote?_char (c : Char) (rest : List Char) :
    unquote? (quoteChar c ++ rest) = (unquote? rest).map fun p => (c :: p.1, p.2) := by
  have read := unquoteChar?_quoted (quoteChar_quoted c) rest
  rw [unquote?]
  split
  · rename_i found
    cases read.symm.trans found
    rfl
  · rename_i nothing
    cases read.symm.trans nothing

/-- A quoted text is read back, whatever stands behind it. -/
theorem unquote?_chars (cs rest : List Char) : unquote? (cs.flatMap quoteChar ++ '"' :: rest) = some (cs, rest) := by
  induction cs with
  | nil =>
    rw [List.flatMap_nil, List.nil_append, unquote?]
    rfl
  | cons c cs ih =>
    rw [List.flatMap_cons, List.append_assoc, unquote?_char, ih]
    rfl

end PageSpec.Text
