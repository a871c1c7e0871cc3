/-!
Looking for texts in texts, over lists of characters.
-/
namespace PageSpec.Text

/-- What follows a given start, if the list has it. -/
def after? : List Char → List Char → Option (List Char)
  | [], cs => some cs
  | _ :: _, [] => none
  | p :: ps, c :: cs => if p = c then after? ps cs else none

/-- What lies before and after the first occurrence of a character. -/
def splitOnce (sep : Char) : List Char → Option (List Char × List Char)
  | [] => none
  | c :: cs =>
    if c = sep then some ([], cs) else (splitOnce sep cs).map fun (l, r) => (c :: l, r)

/-- Whether `needle` stands somewhere in the list; the empty one always does. -/
def occurs (needle : List Char) : List Char → Bool
  | [] => needle.isEmpty
  | c :: cs => needle.isPrefixOf (c :: cs) || occurs needle cs

/-- Whether `needle` stands somewhere in `s`. -/
def has (s needle : String) : Bool := occurs needle.toList s.toList

/-- All stretches between occurrences of a character; one more than there are occurrences. -/
def splitAll (sep : Char) : List Char → List (List Char)
  | [] => [[]]
  | c :: cs =>
    if c = sep then [] :: splitAll sep cs
    else match splitAll sep cs with
      | [] => [[c]]
      | s :: ss => (c :: s) :: ss

/-- What lies before and after the first occurrence of `needle`. -/
def splitAt? (needle : List Char) : List Char → Option (List Char × List Char)
  | [] => if needle.isEmpty then some ([], []) else none
  | c :: cs =>
    match after? needle (c :: cs) with
    | some rest => some ([], rest)
    | none => (splitAt? needle cs).map fun (l, r) => (c :: l, r)

theorem after?_length : ∀ {p cs rest : List Char}, after? p cs = some rest →
    rest.length + p.length = cs.length
  | [], _, _, h => by simp [after?] at h; simp [h]
  | _ :: _, [], _, h => by simp [after?] at h
  | p :: ps, c :: cs, rest, h => by
    by_cases e : p = c
    · simp only [after?, e, ↓reduceIte] at h
      have := after?_length h
      simp; omega
    · simp [after?, e] at h

/-- Every occurrence of a two-character text becomes one character, from the left. -/
def replacePair (a b by_ : Char) : List Char → List Char
  | [] => []
  | [c] => [c]
  | c :: d :: cs =>
    if c = a ∧ d = b then by_ :: replacePair a b by_ cs else c :: replacePair a b by_ (d :: cs)

/-- A decimal digit. -/
def isDigit (c : Char) : Bool := '0' ≤ c && c ≤ '9'
def isAsciiLetter (c : Char) : Bool := ('a' ≤ c && c ≤ 'z') || ('A' ≤ c && c ≤ 'Z')
def isAsciiAlnum (c : Char) : Bool := isAsciiLetter c || isDigit c
/-- Capital letters of the basic alphabet become small; all else stays. -/
def asciiLower (s : String) : String := s.map Char.toLower
def asciiUpper (s : String) : String := s.map Char.toUpper

/-- The number a list of decimal digits writes; other characters are not expected. -/
def digitsValue (cs : List Char) : Nat := cs.foldl (fun n c => n * 10 + (c.toNat - 48)) 0

/-- A number with at least `width` digits, zeros first. -/
def padded (width n : Nat) : String :=
  let ds := (toString n).toList
  .ofList (List.replicate (width - ds.length) '0' ++ ds)

end PageSpec.Text
