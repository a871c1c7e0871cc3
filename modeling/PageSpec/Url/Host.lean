import PageSpec.Decimal.Power
import PageSpec.Text.Find
import PageSpec.Text.Letters
/-!
Hosts of URLs: names, IPv4 addresses in any of their number forms, IPv6 addresses in brackets, and
the opaque hosts of schemes without special rules.
-/
namespace PageSpec.Url

/-- Why a text is no URL. -/
inductive Fault where
  | emptyHost | badName | badPort | badIPv4 | badIPv6 | badHostCharacter | relative | opaqueBase
  deriving DecidableEq, Repr

def Fault.message : Fault → String
  | .emptyHost => "empty host"
  | .badName => "invalid international domain name"
  | .badPort => "invalid port number"
  | .badIPv4 => "invalid IPv4 address"
  | .badIPv6 => "invalid IPv6 address"
  | .badHostCharacter => "invalid domain character"
  | .relative => "relative URL without a base"
  | .opaqueBase => "relative URL with a cannot-be-a-base base"

private def upperHex (n : Nat) : List Char := (Nat.toDigits 16 n).map Char.toUpper

/-- A byte as a percent sign and two digits. -/
def percentByte (b : UInt8) : List Char :=
  let ds := upperHex b.toNat
  '%' :: (if ds.length < 2 then '0' :: ds else ds)

/-- Writes the characters that a set asks for, and all beyond the basic ones, as percent bytes. -/
def percentEncode (inSet : Char → Bool) (cs : List Char) : List Char :=
  cs.flatMap fun c =>
    if c.toNat < 0x20 || 0x7F ≤ c.toNat || inSet c then c.toString.toUTF8.toList.flatMap percentByte
    else [c]

def inFragmentSet (c : Char) : Bool := [' ', '"', '<', '>', '\x60'].contains c
def inPathSet (c : Char) : Bool := inFragmentSet c || ['#', '?', '{', '}'].contains c
def inUserSet (c : Char) : Bool :=
  inPathSet c || ['/', ':', ';', '=', '@', '[', '\\', ']', '^', '|'].contains c
def inQuerySet (c : Char) : Bool := [' ', '"', '#', '<', '>'].contains c
def inSpecialQuerySet (c : Char) : Bool := inQuerySet c || c == '\''

def hexDigit? (c : Char) : Option Nat :=
  if '0' ≤ c ∧ c ≤ '9' then some (c.toNat - 48)
  else if 'a' ≤ c ∧ c ≤ 'f' then some (c.toNat - 87)
  else if 'A' ≤ c ∧ c ≤ 'F' then some (c.toNat - 55)
  else none

/-- The bytes of a text with its percent bytes resolved. -/
def percentDecode : List Char → List UInt8
  | '%' :: a :: b :: cs =>
    match hexDigit? a, hexDigit? b with
    | some h, some l => .ofNat (h * 16 + l) :: percentDecode cs
    | _, _ => '%'.toString.toUTF8.toList ++ percentDecode (a :: b :: cs)
  | c :: cs => c.toString.toUTF8.toList ++ percentDecode cs
  | [] => []

/-! ## Names -/

/-- Divides a distance by 35 until it is small, and counts 36 for each division. -/
private def damped (count d : Nat) : Nat × Nat :=
  if 455 < d then damped (count + 36) (d / 35) else (count, d)
termination_by d
decreasing_by exact Nat.div_lt_self (by omega) (by omega)

/-- The bias that adapts the digit thresholds of encoded labels. -/
private def adapt (delta points : Nat) (first : Bool) : Nat :=
  let d := if first then delta / 700 else delta / 2
  let (count, d) := damped 0 (d + d / points)
  count + 36 * d / (d + 38)

private def labelDigit (n : Nat) : Char := Char.ofNat (if n < 26 then 97 + n else 22 + n)

/-- The digit at which a number may end, from 1 to 26. -/
private def threshold (bias k : Nat) : Nat := max 1 (min 26 (k - bias))

/-- A number in the mixed radix that the bias sets; `k` counts 36 for each digit. -/
private def labelNumber (bias k q : Nat) : List Char :=
  let t := threshold bias k
  if q < t then [labelDigit q]
  else labelDigit (t + (q - t) % (36 - t)) :: labelNumber bias (k + 36) ((q - t) / (36 - t))
termination_by q
decreasing_by
  have : 1 ≤ threshold bias k := Nat.le_max_left _ _
  have : (q - threshold bias k) / (36 - threshold bias k) ≤ q - threshold bias k :=
    Nat.div_le_self _ _
  omega

private structure LabelState where
  n : Nat
  delta : Nat
  bias : Nat
  done : Nat
  out : List Char

private def labelPass (basic : Nat) (label : List Char) (s : LabelState) (m : Nat) : LabelState :=
  let start := { s with delta := s.delta + (m - s.n) * (s.done + 1), n := m }
  let after := label.foldl (fun st c =>
    if c.toNat < m then { st with delta := st.delta + 1 }
    else if c.toNat = m then
      { st with
        out := st.out ++ labelNumber st.bias 36 st.delta
        bias := adapt st.delta (st.done + 1) (st.done == basic)
        delta := 0
        done := st.done + 1 }
    else st) start
  { after with delta := after.delta + 1, n := m + 1 }

/-- The form of a label that has only basic characters. -/
def encodeLabel (label : List Char) : List Char :=
  if label.all (·.toNat < 0x80) then label
  else
    let basic := label.filter (·.toNat < 0x80)
    let points := ((label.filter (0x80 ≤ ·.toNat)).map Char.toNat).mergeSort (· ≤ ·)
    let distinct := points.eraseDups
    let head := if basic.isEmpty then [] else basic ++ ['-']
    let s := distinct.foldl (labelPass basic.length label) ⟨128, 0, 72, basic.length, []⟩
    ['x', 'n', '-', '-'] ++ head ++ s.out

/-- Points that names drop or replace before they are compared. -/
private def foldNameChar (c : Char) : List Char :=
  let n := c.toNat
  if n == 0xAD || n == 0x200B || n == 0x2060 || n == 0xFEFF then []
  else if n == 0x3002 || n == 0xFF0E || n == 0xFF61 then ['.']
  else if 0xFF01 ≤ n && n ≤ 0xFF5E then [(Char.ofNat (n - 0xFEE0)).toLower]
  else Text.lowerFrom [] [c]

/-- Characters that no name has. -/
def forbiddenInName (c : Char) : Bool :=
  c.toNat ≤ 0x20 || c.toNat == 0x7F ||
    ['%', '#', '/', ':', '<', '>', '?', '@', '[', '\\', ']', '^', '|'].contains c

/-- A name in small basic letters. -/
def normalName (cs : List Char) : Except Fault (List Char) :=
  let folded := cs.flatMap foldNameChar
  if folded.any forbiddenInName then .error .badName
  else .ok (['.'].intercalate ((Text.splitAll '.' folded).map encodeLabel))

/-! ## Addresses -/

/-- A part of an IPv4 address; `none` for a text that is no number, and `some none` for one beyond
32 bits. A leading `0x` or `0` sets the base. -/
def ipv4Number (cs : List Char) : Option (Option Nat) :=
  let read (base : Nat) (ds : List Char) : Option (Option Nat) :=
    if ds.isEmpty then some (some 0)
    else
      match ds.mapM fun c => (hexDigit? c).filter (· < base) with
      | none => none
      | some ns =>
        let v := ns.foldl (fun n d => n * base + d) 0
        some (if v < twoTo 32 then some v else none)
  match cs with
  | [] => none
  | '0' :: 'x' :: r => read 16 r
  | '0' :: 'X' :: r => read 16 r
  | '0' :: d :: r => read 8 (d :: r)
  | _ => read 10 cs

/-- Whether the last label of a name is a number, so that the name has to be an address. -/
def endsInNumber (cs : List Char) : Bool :=
  let check (label : List Char) : Bool :=
    (!label.isEmpty && label.all Text.isDigit) || (ipv4Number label).isSome
  match (Text.splitAll '.' cs).reverse with
  | [] => false
  | [last] => !last.isEmpty && check last
  | [] :: before :: _ => check before
  | last :: _ => check last

/-- The address that up to four numbers write; the last one fills the remaining bytes. -/
def ipv4 (cs : List Char) : Except Fault (List Char) := do
  let parts := Text.splitAll '.' cs
  let parts := if parts.getLast? = some [] then parts.dropLast else parts
  if 4 < parts.length then throw .badIPv4
  let numbers ← parts.mapM fun p =>
    match ipv4Number p with
    | some (some n) => .ok n
    | _ => .error .badIPv4
  let front := numbers.dropLast
  let last := numbers.getLastD 0
  if twoTo (32 - 8 * front.length) ≤ last ∨ front.any (255 < ·) then throw .badIPv4
  let v := front.zipIdx.foldl (fun v (n, i) => v + n * twoTo (8 * (3 - i))) last
  .ok (['.'].intercalate
    ([v / twoTo 24, v / twoTo 16 % 256, v / twoTo 8 % 256, v % 256].map fun n => (toString n).toList))

private def piece? (cs : List Char) : Option Nat :=
  if cs.isEmpty ∨ 4 < cs.length then none
  else (cs.mapM hexDigit?).map fun ds => ds.foldl (fun n d => n * 16 + d) 0

private def octet? (cs : List Char) : Option Nat :=
  if cs.isEmpty ∨ 3 < cs.length ∨ !cs.all Text.isDigit ∨ (cs.head? = some '0' ∧ 1 < cs.length) then none
  else
    let n := Text.digitsValue cs
    if n < 256 then some n else none

/-- Two pieces of an address from a dotted quad. -/
private def quad? (cs : List Char) : Option (List Nat) :=
  match (Text.splitAll '.' cs).mapM octet? with
  | some [a, b, c, d] => some [a * 256 + b, c * 256 + d]
  | _ => none

/-- The pieces between colons; the last one may be a dotted quad. -/
private def pieces? (cs : List Char) : Option (List Nat) :=
  if cs.isEmpty then some []
  else
    let parts := Text.splitAll ':' cs
    match parts.dropLast.mapM piece?, parts.getLast? with
    | some front, some last =>
      if last.contains '.' then (quad? last).map (front ++ ·) else (piece? last).map (front ++ [·])
    | _, _ => none

/-- The eight pieces of an address; two colons stand for one zero piece or more. -/
def ipv6Pieces? (cs : List Char) : Option (List Nat) :=
  match Text.splitAt? [':', ':'] cs with
  | none => (pieces? cs).filter (·.length = 8)
  | some (l, r) => do
    if l.contains '.' then none
    let a ← pieces? l
    let b ← pieces? r
    if 7 < a.length + b.length then none
    else some (a ++ List.replicate (8 - a.length - b.length) 0 ++ b)

/-- Start and length of the longest run of zero pieces, the first of the longest. -/
private def longestZeros (ps : List Nat) : Nat × Nat :=
  ((List.range 8).map fun i => (i, ((ps.drop i).takeWhile (· = 0)).length)).foldl
    (fun best c => if best.2 < c.2 then c else best) (0, 0)

private def hexPieces (ps : List Nat) : List Char := [':'].intercalate (ps.map (Nat.toDigits 16 ·))

/-- An address in brackets, with the longest run of two zero pieces or more left out. -/
def ipv6 (cs : List Char) : Except Fault (List Char) :=
  match ipv6Pieces? cs with
  | none => .error .badIPv6
  | some ps =>
    let (start, size) := longestZeros ps
    let body :=
      if size < 2 then hexPieces ps
      else hexPieces (ps.take start) ++ [':', ':'] ++ hexPieces (ps.drop (start + size))
    .ok ('[' :: (body ++ [']']))

private def bracketed? (cs : List Char) : Option (Except Fault (List Char)) :=
  match cs with
  | '[' :: r => some (if r.getLast? = some ']' then ipv6 r.dropLast else .error .badIPv6)
  | _ => none

/-- The host of a scheme with special rules. -/
def specialHost (cs : List Char) : Except Fault (List Char) :=
  match bracketed? cs with
  | some r => r
  | none => do
    match String.fromUTF8? ⟨(percentDecode cs).toArray⟩ with
    | none => throw .badName
    | some decoded =>
      let name ← normalName decoded.toList
      if name.isEmpty then throw .emptyHost
      if endsInNumber name then ipv4 name else .ok name

/-- The host of any other scheme. -/
def opaqueHost (cs : List Char) : Except Fault (List Char) :=
  match bracketed? cs with
  | some r => r
  | none =>
    if cs.any ['\x00', '\t', '\n', '\r', ' ', '#', '/', ':', '<', '>', '?', '@', '[', '\\', ']', '^',
        '|'].contains then .error .badHostCharacter
    else .ok (percentEncode (fun _ => false) cs)

end PageSpec.Url
