import PageSpec.Text.Find
/-!
URL globs. Two stars stand for any text within a line, a single star for any text without a slash,
and every other character for itself. Stars are paired greedily from the left.
-/
namespace PageSpec.Network

/-- A piece of a glob. -/
inductive GlobPiece where
  /-- Two stars. -/
  | anything
  /-- One star. -/
  | segment
  | char (c : Char)
  deriving DecidableEq, Repr

/-- A glob as written, and its pieces. -/
structure Glob where
  source : String
  pieces : List GlobPiece
  deriving DecidableEq, Repr

namespace GlobPiece

/-- The pieces of a pattern text. -/
def ofChars : List Char → List GlobPiece
  | '*' :: '*' :: cs => .anything :: ofChars cs
  | '*' :: cs => .segment :: ofChars cs
  | c :: cs => .char c :: ofChars cs
  | [] => []

/-- Characters that a star may stand for. -/
def admits : GlobPiece → Char → Bool
  | .anything, c => c != '\n'
  | .segment, c => c != '/'
  | .char d, c => c == d

/-- Given for every end of the URL whether the later pieces match it, the same with a star in front:
a star may stop here or take one more character. -/
def starRow (p : GlobPiece) : List Char → List Bool → List Bool
  | c :: cs, here :: later =>
    let row := starRow p cs later
    (here || (p.admits c && row.headD false)) :: row
  | _, row => row

/-- For every end of the URL, longest first, whether the pieces match all of it. -/
def matchRow (url : List Char) : List GlobPiece → List Bool
  | [] => url.map (fun _ => false) ++ [true]
  | .char d :: ps =>
    List.zipWith (fun c later => c == d && later) url (matchRow url ps).tail ++ [false]
  | p :: ps => starRow p url (matchRow url ps)

/-- How a piece is written as a regular expression. -/
def pattern : GlobPiece → List Char
  | .anything => ['.', '*']
  | .segment => ['[', '^', '/', ']', '*']
  | .char c =>
    if ['.', '+', '^', '$', '{', '}', '(', ')', '|', '[', ']', '\\', '?'].contains c then ['\\', c]
    else [c]

end GlobPiece

namespace Glob

def ofString (source : String) : Glob := ⟨source, GlobPiece.ofChars source.toList⟩
/-- Whether the whole URL can be split along the pieces. -/
def admits (g : Glob) (url : String) : Bool :=
  (GlobPiece.matchRow url.toList g.pieces).headD false
/-- The glob as an anchored regular expression. -/
def regex (g : Glob) : String := .ofList ('^' :: (g.pieces.flatMap GlobPiece.pattern ++ ['$']))

end Glob

/-- Patterns on URLs. -/
inductive UrlPattern where
  | exact (url : String)
  | part (needle : String)
  | glob (g : Glob)
  | any
  deriving DecidableEq, Repr

namespace UrlPattern

def admits : UrlPattern → String → Bool
  | .exact u, url => url == u
  | .part n, url => Text.has url n
  | .glob g, url => g.admits url
  | .any, _ => true

def describe : UrlPattern → String
  | .exact u => s!"exact:{u}"
  | .part n => s!"contains:{n}"
  | .glob g => s!"glob:{g.source}"
  | .any => "*"

end UrlPattern
end PageSpec.Network
