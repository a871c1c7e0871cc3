/-!
Blanks: the code points with the white-space property. Trimming removes them from both ends, and
collapsing writes the words between them with single blanks.
-/
namespace PageSpec.Text

/-- The white-space property. -/
def isBlank (c : Char) : Bool :=
  let n := c.toNat
  (9 ≤ n && n ≤ 13) || n == 0x20 || n == 0x85 || n == 0xA0 || n == 0x1680 ||
    (0x2000 ≤ n && n ≤ 0x200A) || n == 0x2028 || n == 0x2029 || n == 0x202F || n == 0x205F ||
    n == 0x3000

def trimStart (cs : List Char) : List Char := cs.dropWhile isBlank
def trimEnd (cs : List Char) : List Char := (cs.reverse.dropWhile isBlank).reverse
/-- Both ends without their blanks. -/
def trimChars (cs : List Char) : List Char := trimEnd (trimStart cs)
/-- Both ends without their blanks. -/
def trim (s : String) : String := .ofList (trimChars s.toList)
/-- Nothing but blanks. -/
def allBlank (s : String) : Bool := s.toList.all isBlank

/-- The pending word, given from its last letter, followed by the other words. -/
private def closeWord (pending : List Char) (rest : List (List Char)) : List (List Char) :=
  if pending.isEmpty then rest else pending.reverse :: rest
/-- Maximal stretches without a blank; `pending` is the open word, last letter first. -/
def wordsFrom (pending : List Char) : List Char → List (List Char)
  | [] => closeWord pending []
  | c :: cs => if isBlank c then closeWord pending (wordsFrom [] cs) else wordsFrom (c :: pending) cs
/-- Maximal stretches without a blank, in order. -/
def words (cs : List Char) : List (List Char) := wordsFrom [] cs
/-- The words of a text with one blank between neighbours. -/
def collapse (s : String) : String := " ".intercalate ((words s.toList).map String.ofList)

end PageSpec.Text
