import PageSpec.Proofs.Dynamic.CallRows
import PageSpec.Proofs.Dynamic.Offsets
import PageSpec.Proofs.Tokens.Bytes
/-!
Replacing date calls loses no text. The search for calls goes by offsets into the bytes of the text, with the word
found in a copy in small letters. No cut that it makes on the way falls into a letter, and it finds the calls that
stand in the text letter by letter.
-/
namespace PageSpec.Dynamic

/-! ## Small letters -/

section
variable {c : Char} {cs front back needle : List Char}

theorem isSmall_of_toLower (small : Tokens.IsSmall c.toLower) : Tokens.IsSmall c := by
  by_cases capital : 65 ≤ c.toNat ∧ c.toNat ≤ 90
  · exact Nat.lt_of_le_of_lt capital.2 (by decide)
  · rwa [toLower_other capital] at small

theorem toLower_small (small : Tokens.IsSmall c) : Tokens.IsSmall c.toLower := by
  unfold Char.toLower
  split
  · rename_i capital
    rw [ge_iff_le, UInt32.le_iff_toNat_le, UInt32.le_iff_toNat_le] at capital
    have top : c.val.toNat ≤ 90 := capital.2
    have shifted : (c.val + ('a'.val - 'A'.val)).toNat = (c.val.toNat + 32) % 2 ^ 32 := UInt32.toNat_add _ _
    change (c.val + ('a'.val - 'A'.val)).toNat < 128
    omega
  · exact small

theorem encode_toLower_length (c : Char) : (Tokens.encode c.toLower).length = (Tokens.encode c).length := by
  by_cases capital : 65 ≤ c.toNat ∧ c.toNat ≤ 90
  · have small : Tokens.IsSmall c := Nat.lt_of_le_of_lt capital.2 (by decide)
    have lower : Tokens.IsSmall c.toLower := toLower_small small
    rw [Tokens.encode_small small, Tokens.encode_small lower]
    rfl
  · rw [toLower_other capital]

/-- A copy in small letters has its letters at the same bytes. -/
theorem bytes_lower_length : ∀ cs : List Char,
    (Tokens.bytes (cs.map Char.toLower)).length = (Tokens.bytes cs).length
  | [] => rfl
  | c :: cs => by
    have later := bytes_lower_length cs
    unfold Tokens.bytes at later ⊢
    rw [List.map_cons, List.flatMap_cons, List.flatMap_cons, List.length_append, List.length_append,
      encode_toLower_length, later]

theorem cut?_lower (front back : List Char) :
    Tokens.cut? ((front ++ back).map Char.toLower) (Tokens.bytes front).length =
      some (front.map Char.toLower, back.map Char.toLower) := by
  rw [List.map_append, ← bytes_lower_length, Tokens.cut?_append]

/-- Letters of one byte stand at the beginning of the bytes where they stand at the beginning of the text. -/
theorem after?_bytes (small : ∀ d ∈ needle, Tokens.IsSmall d) (cs : List Char) :
    Text.after? needle (Tokens.bytes cs) = (Text.after? needle cs).map Tokens.bytes := by
  cases found : Text.after? needle cs with
  | some rest =>
    rw [Text.eq_of_after? found, Tokens.bytes_append, Tokens.bytes_small small, Text.after?_append]
    rfl
  | none =>
    cases found' : Text.after? needle (Tokens.bytes cs) with
    | none => rfl
    | some back =>
      obtain ⟨rest, split, _⟩ := Tokens.front_of_bytes small (Text.eq_of_after? found')
      rw [split, Text.after?_append] at found
      cases found

theorem splitAt?_skip {n : Char} : ∀ {front : List Char}, n ∉ front → ∀ back : List Char,
    Text.splitAt? (n :: needle) (front ++ back) =
      (Text.splitAt? (n :: needle) back).map fun (skipped, rest) => (front ++ skipped, rest)
  | [], _, back => by
    rw [List.nil_append]
    cases Text.splitAt? (n :: needle) back <;> rfl
  | c :: front, absent, back => by
    obtain ⟨other, later⟩ := not_or.mp (mt List.mem_cons.mpr absent)
    have unlike : Text.after? (n :: needle) (c :: (front ++ back)) = none := if_neg other
    rw [List.cons_append, Text.splitAt?, unlike, splitAt?_skip later]
    cases Text.splitAt? (n :: needle) back <;> rfl

/-- Letters of one byte are found in the bytes where they are found in the text. -/
theorem splitAt?_bytes {n : Char} (small : ∀ d ∈ n :: needle, Tokens.IsSmall d) : ∀ cs : List Char,
    Text.splitAt? (n :: needle) (Tokens.bytes cs) =
      (Text.splitAt? (n :: needle) cs).map fun (skipped, rest) => (Tokens.bytes skipped, Tokens.bytes rest)
  | [] => rfl
  | c :: cs => by
    have later := splitAt?_bytes small cs
    have here := after?_bytes small (c :: cs)
    have apart : Tokens.bytes (c :: cs) = Tokens.encode c ++ Tokens.bytes cs := List.flatMap_cons
    cases found : Text.after? (n :: needle) (c :: cs) with
    | some rest =>
      rw [found] at here
      obtain ⟨b, bs, first⟩ := List.exists_cons_of_length_pos (Tokens.encode_pos c)
      rw [apart, first, List.cons_append] at here ⊢
      rw [Text.splitAt?, here, Text.splitAt?, found]
      rfl
    | none =>
      rw [found] at here
      rw [Text.splitAt?, found]
      by_cases one : Tokens.IsSmall c
      · rw [apart, Tokens.encode_small one, List.singleton_append] at here ⊢
        rw [Text.splitAt?, here, later]
        cases Text.splitAt? (n :: needle) cs <;> simp [Tokens.bytes, Tokens.encode_small one]
      · have absent : n ∉ Tokens.encode c := fun member => Tokens.encode_large one member (small n (.head _))
        rw [apart, splitAt?_skip absent, later]
        cases Text.splitAt? (n :: needle) cs <;> simp [Tokens.bytes]

end

/-! ## Searching by bytes -/

/-- The word that calls begin with. -/
def callWord : List Char := ['d', 'a', 't', 'e']

theorem callWord_small : ∀ d ∈ callWord, Tokens.IsSmall d := by
  intro d member
  simp only [callWord, List.mem_cons, List.not_mem_nil, or_false] at member
  rcases member with rfl | rfl | rfl | rfl <;> decide

/-- A call by the offsets of its first letter and of its closing bracket. -/
structure ByteCall where
  start : Nat
  inner : List Char
  close : Nat
  deriving DecidableEq, Repr

/-- What stands before the first closing bracket, with its number of bytes, if anything does; `none` if a cut fails. -/
def innerOf? (rest : List Char) : Option (Option (List Char × Nat)) :=
  match (Tokens.bytes rest).findIdx? (· = ')') with
  | some (n + 1) => (Tokens.cut? rest (n + 1)).map fun (inner, _) => some (inner, n + 1)
  | _ => some none

/-- What stands at a place where the word was found: a call, or none; `none` if a cut fails. -/
def callAt? (cs : List Char) (start : Nat) : Option (Option ByteCall) := do
  let (_, behind) ← Tokens.cut? cs (start + 4)
  let blanks := (Tokens.bytes behind).length - (Tokens.bytes (Text.trimStart behind)).length
  let (_, bracket) ← Tokens.cut? behind blanks
  if bracket.head? = some '(' then
    let body := start + 4 + blanks + 1
    let (_, rest) ← Tokens.cut? cs body
    let found ← innerOf? rest
    return found.map fun (inner, n) => ⟨start, inner, body + n⟩
  else return none

theorem cut?_le : ∀ {cs : List Char} {n : Nat} {both : List Char × List Char}, Tokens.cut? cs n = some both →
    n ≤ (Tokens.bytes cs).length
  | _, 0, _, _ => Nat.zero_le _
  | c :: cs, n + 1, both, found => by
    unfold Tokens.cut? at found
    split at found
    · rename_i fits
      obtain ⟨rest, later, _⟩ := Option.map_eq_some_iff.mp found
      have bound := cut?_le later
      have apart : (Tokens.bytes (c :: cs)).length = (Tokens.encode c).length + (Tokens.bytes cs).length := by
        rw [Tokens.bytes, List.flatMap_cons, List.length_append]
        rfl
      omega
    · cases found

/-- The first call from a place on, if there is one; `none` if a cut fails. Where the word stands without a call, the
search goes on behind it. -/
def findFrom? (cs : List Char) (place : Nat) : Option (Option ByteCall) :=
  match _here : Tokens.cut? (cs.map Char.toLower) place with
  | none => none
  | some (_, lower) =>
    match Text.splitAt? callWord (Tokens.bytes lower) with
    | none => some none
    | some (skipped, _) =>
      match callAt? cs (place + skipped.length) with
      | none => none
      | some (some call) => some (some call)
      | some none => findFrom? cs (place + skipped.length + 4)
termination_by (Tokens.bytes cs).length + 1 - place
decreasing_by
  have inside := cut?_le _here
  rw [bytes_lower_length] at inside
  omega

/-- Replacing calls by cuts at offsets: `none` where a cut fails. -/
def resolveBytes (s : DateSettings) (cs : List Char) : Roll (Option (List Char)) :=
  match findFrom? cs 0 with
  | none => return none
  | some none => return some cs
  | some (some call) =>
    match Tokens.cut? cs call.start, _behind : Tokens.cut? cs (call.close + 1) with
    | some (before, _), some (_, after) => do
      let text ← renderCall s call.inner
      let rest ← resolveBytes s after
      return rest.map fun out => before ++ (text.toList ++ out)
    | _, _ => return none
termination_by cs.length
decreasing_by exact Tokens.cut?_shorter _behind

/-! ## Cuts that do not fail -/

section
variable {cs front word behind : List Char}

theorem bytes_length_append (front back : List Char) :
    (Tokens.bytes (front ++ back)).length = (Tokens.bytes front).length + (Tokens.bytes back).length := by
  rw [Tokens.bytes_append, List.length_append]

theorem word_small (lower : word.map Char.toLower = callWord) : ∀ c ∈ word, Tokens.IsSmall c := by
  intro c member
  apply isSmall_of_toLower
  have listed := List.mem_map_of_mem (f := Char.toLower) member
  rw [lower] at listed
  exact callWord_small _ listed

theorem word_bytes (lower : word.map Char.toLower = callWord) : (Tokens.bytes word).length = 4 := by
  rw [Tokens.bytes_small (word_small lower)]
  simpa [callWord] using congrArg List.length lower

theorem BeginsCall.exists_word (begins : BeginsCall cs) : ∃ word rest, cs = word ++ rest ∧ word.map Char.toLower = callWord := by
  obtain ⟨_, inner, after, ⟨word, blanks, lower, _, rfl⟩, _, _, rfl⟩ := begins
  exact ⟨word, blanks ++ ['('] ++ inner ++ ')' :: after, by simp, lower⟩

theorem not_beginsCall (absent : Text.after? callWord (cs.map Char.toLower) = none) : ¬ BeginsCall cs := by
  intro begins
  obtain ⟨word, rest, rfl, lower⟩ := begins.exists_word
  rw [List.map_append, lower, Text.after?_append] at absent
  cases absent

/-- Where the word is not found, no call begins. -/
theorem free_of_splitAt? : ∀ {cs : List Char}, Text.splitAt? callWord (cs.map Char.toLower) = none → FreeBefore cs []
  | [], _ => freeBefore_nil
  | c :: cs, absent => by
    rw [List.map_cons, Text.splitAt?] at absent
    split at absent
    · cases absent
    · rename_i here
      rw [← List.map_cons] at here
      refine freeBefore_cons.mpr ⟨?_, free_of_splitAt? (Option.map_eq_none_iff.mp absent)⟩
      rw [List.append_nil]
      exact not_beginsCall here

/-- Where the word is found first, no call begins before it. -/
theorem split_of_splitAt? : ∀ {cs skipped after : List Char},
    Text.splitAt? callWord (cs.map Char.toLower) = some (skipped, after) →
    ∃ skip word behind, cs = skip ++ (word ++ behind) ∧ skip.map Char.toLower = skipped ∧
      word.map Char.toLower = callWord ∧ FreeBefore skip (word ++ behind)
  | [], _, _, found => nomatch found
  | c :: cs, skipped, after, found => by
    rw [List.map_cons, Text.splitAt?] at found
    split at found
    · rename_i rest here
      cases found
      rw [← List.map_cons] at here
      obtain ⟨word, behind, whole, lower, _⟩ := List.map_eq_append_iff.mp (Text.eq_of_after? here)
      exact ⟨[], word, behind, whole, rfl, lower, freeBefore_nil⟩
    · rename_i here
      rw [← List.map_cons] at here
      obtain ⟨⟨skipped', after'⟩, later, both⟩ := Option.map_eq_some_iff.mp found
      cases both
      obtain ⟨skip, word, behind, rfl, rfl, lower, free⟩ := split_of_splitAt? later
      exact ⟨c :: skip, word, behind, rfl, rfl, lower, freeBefore_cons.mpr ⟨not_beginsCall here, free⟩⟩

theorem callHere_word (lower : word.map Char.toLower = callWord) : callHere (word ++ behind) =
    match Text.trimStart behind with
    | '(' :: r => callHere (word ++ behind.takeWhile Text.isBlank ++ ['('] ++ r)
    | _ => none := by
  have size : word.length = 4 := by simpa [callWord] using congrArg List.length lower
  have front : (word ++ behind).take 4 = word := by simp [← size]
  have back : (word ++ behind).drop 4 = behind := by simp [← size]
  have blanks := List.takeWhile_append_dropWhile (p := Text.isBlank) (l := behind)
  split
  · rename_i r bracket
    rw [← Text.trimStart, bracket] at blanks
    simp [blanks]
  · rename_i other
    unfold callHere
    rw [front, back]
    split
    · split
      · rename_i r bracket
        exact absurd bracket (other r)
      · rfl
    · rfl

/-- A call of a text by its offsets, from the text before it and from its inner text and what is behind it. -/
def byteCall (cs front : List Char) (call : List Char × List Char) : ByteCall :=
  ⟨(Tokens.bytes front).length, call.1, (Tokens.bytes cs).length - (Tokens.bytes call.2).length - 1⟩

theorem innerOf?_closed {inner after : List Char} (closed : ')' ∉ inner) : innerOf? (inner ++ ')' :: after) =
    some (if inner = [] then none else some (inner, (Tokens.bytes inner).length)) := by
  unfold innerOf?
  rw [Tokens.find_stop (by decide) closed]
  cases inner with
  | nil => rfl
  | cons c inner =>
    obtain ⟨n, size⟩ : ∃ n, (Tokens.bytes (c :: inner)).length = n + 1 :=
      Nat.exists_eq_succ_of_ne_zero (by simp [Tokens.bytes, (Tokens.encode_pos c).ne'])
    have cut := Tokens.cut?_append (c :: inner) (')' :: after)
    rw [size] at cut ⊢
    rw [if_neg (List.cons_ne_nil _ _)]
    exact congrArg (Option.map _) cut

theorem innerOf?_unclosed {rest : List Char} (open_ : ')' ∉ rest) : innerOf? rest = some none := by
  unfold innerOf?
  rw [Tokens.find_none (by decide) open_]

/-- Behind an opening no cut fails. -/
theorem callBehind_opening {opening rest : List Char} (opens : IsOpening opening) :
    ((innerOf? rest).map fun found => found.map fun (inner, n) =>
      (⟨(Tokens.bytes front).length, inner, (Tokens.bytes (front ++ opening)).length + n⟩ : ByteCall)) =
      some ((callHere (opening ++ rest)).map (byteCall (front ++ (opening ++ rest)) front)) := by
  by_cases closed : ')' ∈ rest
  · obtain ⟨inner, after, rfl, absent⟩ := List.eq_append_cons_of_mem closed
    rw [innerOf?_closed absent, callHere_closed opens absent]
    by_cases some_ : inner = []
    · rw [if_pos some_, if_pos some_]
      rfl
    · rw [if_neg some_, if_neg some_]
      have text : front ++ (opening ++ (inner ++ ')' :: after)) = front ++ opening ++ (inner ++ ([')'] ++ after)) := by
        simp
      have close : (Tokens.bytes [')']).length = 1 := rfl
      have total : (Tokens.bytes (front ++ (opening ++ (inner ++ ')' :: after)))).length =
          (Tokens.bytes (front ++ opening)).length +
            ((Tokens.bytes inner).length + (1 + (Tokens.bytes after).length)) := by
        rw [text, bytes_length_append, bytes_length_append inner, bytes_length_append [')'], close]
      simp only [Option.map_some, byteCall, total]
      congr 3
      omega
  · rw [innerOf?_unclosed closed, callHere_unclosed opens closed]
    rfl

/-- Behind the word no cut fails. -/
theorem callAt?_word (lower : word.map Char.toLower = callWord) :
    callAt? (front ++ (word ++ behind)) (Tokens.bytes front).length =
      some ((callHere (word ++ behind)).map (byteCall (front ++ (word ++ behind)) front)) := by
  have size := word_bytes lower
  obtain ⟨blanks, blank, split⟩ : ∃ blanks, (∀ c ∈ blanks, Text.isBlank c = true) ∧
      blanks ++ Text.trimStart behind = behind :=
    ⟨behind.takeWhile Text.isBlank, fun _ => List.mem_takeWhile_imp, List.takeWhile_append_dropWhile⟩
  generalize started : Text.trimStart behind = bracket at split
  have afterWord : Tokens.cut? (front ++ (word ++ behind)) ((Tokens.bytes front).length + 4) =
      some (front ++ word, behind) := by
    rw [← size, ← bytes_length_append, ← List.append_assoc, Tokens.cut?_append]
  have count : (Tokens.bytes behind).length - (Tokens.bytes bracket).length = (Tokens.bytes blanks).length := by
    rw [← split, bytes_length_append]
    omega
  have afterBlanks : Tokens.cut? behind (Tokens.bytes blanks).length = some (blanks, bracket) := by
    rw [← split, Tokens.cut?_append]
  unfold callAt?
  simp only [afterWord, Option.bind_eq_bind, Option.bind_some, started, count, afterBlanks]
  by_cases opens : bracket.head? = some '('
  · obtain ⟨rest, rfl⟩ := List.head?_eq_some_iff.mp opens
    have opening : IsOpening (word ++ blanks ++ ['(']) := ⟨word, blanks, lower, blank, rfl⟩
    have whole : word ++ behind = word ++ blanks ++ ['('] ++ rest := by simp [← split]
    have own : (Tokens.bytes ['(']).length = 1 := rfl
    have body : (Tokens.bytes front).length + 4 + (Tokens.bytes blanks).length + 1 =
        (Tokens.bytes (front ++ (word ++ blanks ++ ['(']))).length := by
      rw [bytes_length_append, bytes_length_append, bytes_length_append, size, own]
      omega
    have afterBracket : Tokens.cut? (front ++ (word ++ behind))
        (Tokens.bytes (front ++ (word ++ blanks ++ ['(']))).length = some (front ++ (word ++ blanks ++ ['(']), rest) := by
      rw [whole, ← List.append_assoc, Tokens.cut?_append]
    rw [if_pos opens, body, afterBracket, Option.bind_some, whole, ← callBehind_opening opening]
    cases innerOf? rest <;> rfl
  · have none : callHere (word ++ behind) = none := by
      rw [callHere_word lower, started]
      split
      · exact absurd rfl opens
      · rfl
    rw [if_neg opens, none]
    rfl

/-- No cut of the search fails, and it finds what is found letter by letter. -/
theorem findFrom?_eq : ∀ front rest : List Char, findFrom? (front ++ rest) (Tokens.bytes front).length =
    some ((findCall rest).map fun f => byteCall (front ++ rest) (front ++ f.before) (f.inner, f.after))
  | front, rest => by
    rw [findFrom?, cut?_lower]
    dsimp only
    rw [callWord, splitAt?_bytes callWord_small, ← callWord]
    cases found : Text.splitAt? callWord (rest.map Char.toLower) with
    | none =>
      rw [findCall_eq_none (free_of_splitAt? found)]
      rfl
    | some both =>
      obtain ⟨skip, word, behind, split, skipped, lower, free⟩ := split_of_splitAt? found
      have shorter : behind.length < rest.length := by
        have size : word.length = 4 := by simpa [callWord] using congrArg List.length lower
        rw [split, List.length_append, List.length_append]
        omega
      have later := findFrom?_eq (front ++ skip ++ word) behind
      have place : (Tokens.bytes front).length + (Tokens.bytes both.1).length = (Tokens.bytes (front ++ skip)).length := by
        rw [← skipped, bytes_lower_length, bytes_length_append]
      have next : (Tokens.bytes (front ++ skip)).length + 4 = (Tokens.bytes (front ++ skip ++ word)).length := by
        rw [bytes_length_append (front ++ skip), word_bytes lower]
      have whole : front ++ rest = front ++ skip ++ (word ++ behind) := by rw [split, List.append_assoc]
      have whole' : front ++ rest = front ++ skip ++ word ++ behind := by rw [split]; simp
      rw [← whole'] at later
      dsimp only [Option.map_some]
      rw [place, next, whole, callAt?_word lower, ← whole, later, split, findCall_free free]
      cases here : callHere (word ++ behind) with
      | some call =>
        rw [findCall_here here]
        simp [FoundCall.behind]
      | none =>
        rw [findCall_free (freeBefore_word lower (callHere_eq_none_iff.mp here))]
        simp [FoundCall.behind, Function.comp_def]
termination_by _ rest => rest.length
decreasing_by exact shorter

theorem resolveBytes_eq (s : DateSettings) : ∀ cs : List Char, resolveBytes s cs = some <$> resolveCalls s cs
  | cs => by
    have search := findFrom?_eq [] cs
    rw [List.nil_append] at search
    rw [resolveBytes, show (0 : Nat) = (Tokens.bytes []).length from rfl, search]
    cases found : findCall cs with
    | none =>
      rw [resolveCalls_none found, map_pure]
      rfl
    | some f =>
      have later := resolveBytes_eq s f.after
      obtain ⟨rest, split, here⟩ := findCall_stands found
      obtain ⟨opening, _, _, _, call⟩ := callHere_eq_some_iff.mp here
      have before : Tokens.cut? cs (Tokens.bytes f.before).length = some (f.before, rest) := by
        rw [split, Tokens.cut?_append]
      have whole : cs = f.before ++ opening ++ f.inner ++ [')'] ++ f.after := by rw [split, call]; simp
      have behind : Tokens.cut? cs ((Tokens.bytes cs).length - (Tokens.bytes f.after).length - 1 + 1) =
          some (f.before ++ opening ++ f.inner ++ [')'], f.after) := by
        have close : (Tokens.bytes [')']).length = 1 := rfl
        have total := bytes_length_append (f.before ++ opening ++ f.inner ++ [')']) f.after
        have some_ := bytes_length_append (f.before ++ opening ++ f.inner) [')']
        have place : (Tokens.bytes cs).length - (Tokens.bytes f.after).length - 1 + 1 =
            (Tokens.bytes (f.before ++ opening ++ f.inner ++ [')'])).length := by
          rw [whole]
          omega
        rw [place]
        conv => lhs; rw [whole]
        exact Tokens.cut?_append _ _
      simp only [Option.map_some, byteCall, List.nil_append]
      rw [before, behind]
      dsimp only
      rw [later, resolveCalls_some found]
      simp
termination_by cs => cs.length
decreasing_by exact findCall_shorter found

end

/-! ## Every text -/

/-- Replacing loses no text and fails in no cut. The search by bytes finds the first call of a text, and replacing
with it comes to the same. Every text is a row of calls, and however it is taken for one, the calls are written out
in order and all else is copied. An opening that makes no call is copied wherever it stands, and what is behind it is
replaced as if it stood alone. -/
theorem resolveCalls_copies (s : DateSettings) (cs : List Char) :
    (findFrom? cs 0 = some ((findCall cs).map fun f => byteCall cs f.before (f.inner, f.after)) ∧
      resolveBytes s cs = some <$> resolveCalls s cs) ∧
    ((∃ xs tail, CallRow cs xs tail ∧ FreeBefore tail []) ∧
      ∀ xs tail, CallRow cs xs tail → FreeBefore tail [] → resolveCalls s cs = (do
        let texts ← xs.mapM fun x => renderCall s x.inner
        return writtenOut xs texts tail)) ∧
    ∀ xs front opening closing rest, CallRow cs xs (front ++ (opening ++ closing) ++ rest) → IsOpening opening →
      NoCall closing rest → FreeBefore front (opening ++ closing ++ rest) → resolveCalls s cs = (do
        let texts ← xs.mapM fun x => renderCall s x.inner
        let out ← resolveCalls s rest
        return writtenOut xs texts (front ++ (opening ++ closing) ++ out)) := by
  refine ⟨⟨findFrom?_eq [] cs, resolveBytes_eq s cs⟩, ⟨exists_callRow cs, ?_⟩, ?_⟩
  · intro xs tail row free
    rw [resolveCalls_row row, resolveCalls_none (findCall_eq_none free)]
    simp only [pure_bind]
  · intro xs front opening closing rest row opens noCall free
    rw [resolveCalls_row row, resolveCalls_free (freeBefore_append.mpr ⟨free, freeBefore_opening opens noCall⟩)]
    simp only [map_eq_pure_bind, bind_assoc, pure_bind]

/-- Openings that make no call, before and behind one that does, with letters of several bytes. -/
def strayOpenings : String := "date() é DATE\u3000(2025-10-05, 'yy')! date("

/-- The call between them. -/
def strayCall : CallSpan where
  before := "date() é ".toList
  opening := "DATE\u3000(".toList
  inner := "2025-10-05, 'yy'".toList
  opens := ⟨"DATE".toList, ['\u3000'], by decide, List.forall_mem_singleton.mpr (by decide), by decide⟩
  some_ := by decide
  closed := by decide

theorem strayOpenings_copied :
    (resolveCalls octoberDates strayOpenings.toList default).1 = .ok "date() é 25! date(".toList ∧
    resolveBytes octoberDates strayOpenings.toList = (some <$> do
      let texts ← [strayCall].mapM fun x => renderCall octoberDates x.inner
      return writtenOut [strayCall] texts "! date(".toList) ∧
    resolveCalls octoberDates strayOpenings.toList = (do
      let out ← resolveCalls octoberDates " é DATE\u3000(2025-10-05, 'yy')! date(".toList
      return "date()".toList ++ out) := by
  obtain ⟨⟨_, bytewise⟩, ⟨_, rows⟩, openings⟩ := resolveCalls_copies octoberDates strayOpenings.toList
  have whole : strayOpenings.toList = strayCall.before ++ (strayCall.call ++ "! date(".toList) := by decide
  have alone : FreeBefore strayCall.before (strayCall.call ++ "! date(".toList) := by decide
  have row : CallRow strayOpenings.toList [strayCall] "! date(".toList := whole ▸ .call alone .rest
  have told := rows _ _ row (by decide)
  have small : IsOpening "date(".toList := ⟨"date".toList, [], by decide, List.forall_mem_nil _, by decide⟩
  have split : strayOpenings.toList = [] ++ ("date(".toList ++ [')']) ++
      " é DATE\u3000(2025-10-05, 'yy')! date(".toList := by decide
  refine ⟨?_, by rw [bytewise, told], ?_⟩
  · rw [told]
    exact eq_ok_of_toOption (by decide +kernel)
  · have first : CallRow strayOpenings.toList [] strayOpenings.toList := .rest
    rw [openings [] [] _ _ _ (split ▸ first) small (.inl rfl) (freeBefore_nil)]
    rfl

end PageSpec.Dynamic
