import PageSpec.Url.Host
/-!
URLs and their joining. A reference is read against a base: what it leaves out is taken from the
base, dot segments are resolved, and every part is written with its own percent encoding.
-/
namespace PageSpec

/-- The part between two slashes and the path. -/
structure Authority where
  /-- User and password with the closing at sign, or nothing. -/
  user : List Char
  host : List Char
  port : Option Nat
  deriving DecidableEq, Repr

/-- A URL, with all its parts encoded. -/
structure Url where
  scheme : List Char
  authority : Option Authority
  path : List Char
  query : Option (List Char)
  fragment : Option (List Char)
  deriving DecidableEq, Repr

namespace Url

/-- Which rules a scheme follows. -/
inductive Rules where
  | file
  | special
  | plain
  deriving DecidableEq, Repr

def Rules.of (scheme : List Char) : Rules :=
  if scheme = "file".toList then .file
  else if ["http", "https", "ws", "wss", "ftp"].contains (String.ofList scheme) then .special
  else .plain

def Rules.isSpecial (r : Rules) : Bool := r != .plain

/-- The port that a scheme implies. -/
def defaultPort? (scheme : List Char) : Option Nat :=
  match String.ofList scheme with
  | "http" | "ws" => some 80
  | "https" | "wss" => some 443
  | "ftp" => some 21
  | _ => none

/-- The text of a URL. A path that would read as an authority gets a dot in front. -/
def write (u : Url) : String :=
  let front := match u.authority with
    | some a =>
      let port := match a.port with
        | some p => ':' :: (toString p).toList
        | none => []
      ['/', '/'] ++ a.user ++ a.host ++ port
    | none => if ['/', '/'].isPrefixOf u.path then ['/', '.'] else []
  let query := match u.query with
    | some q => '?' :: q
    | none => []
  let fragment := match u.fragment with
    | some f => '#' :: f
    | none => []
  .ofList (u.scheme ++ ':' :: (front ++ u.path ++ query ++ fragment))

/-- Whether nothing but a fragment can be joined to the URL. -/
def isOpaque (u : Url) : Bool := u.authority.isNone && u.path.head? != some '/'

/-! ## Drive letters -/

def isDriveLetter (cs : List Char) : Bool :=
  match cs with
  | [a, b] => Text.isAsciiLetter a && (b == ':' || b == '|')
  | _ => false

def isNormalDriveLetter (cs : List Char) : Bool := isDriveLetter cs && cs.getLast? == some ':'

/-- Whether a text starts with a drive letter that ends there or at a separator. -/
def startsWithDriveLetter (cs : List Char) : Bool :=
  match cs with
  | a :: b :: rest =>
    isDriveLetter [a, b] && (rest.isEmpty || ['/', '\\', '?', '#'].any (rest.head? == some ·))
  | _ => false

/-! ## Paths -/

/-- A path up to and with its last slash, unless a drive letter follows it. -/
def popSegment (file : Bool) (path : List Char) : List Char :=
  let last := (path.reverse.takeWhile (· ≠ '/')).reverse
  if file && isNormalDriveLetter last then path else path.take (path.length - last.length)

/-- A path without its last segment; a lone drive letter stays. -/
def shorten (file : Bool) (path : List Char) : List Char :=
  if file && isNormalDriveLetter path then path else popSegment file path

/-- Whether the slash at the end of a path may go when its segment does: not the root, and not the
one after a drive letter. -/
def canDropSlash (path : List Char) : Bool :=
  let before := path.dropLast
  let last := (before.reverse.takeWhile (· ≠ '/')).reverse
  last.length < before.length && !startsWithDriveLetter (last ++ ['/'])

def isDoubleDot (cs : List Char) : Bool :=
  ["..", "%2e%2e", "%2e.", ".%2e"].contains (String.ofList (cs.map Char.toLower))
def isSingleDot (cs : List Char) : Bool :=
  [".", "%2e"].contains (String.ofList (cs.map Char.toLower))

/-- A path with one more segment; `slash` tells whether a separator ends the segment. -/
def addSegment (file : Bool) (path raw : List Char) (slash : Bool) : List Char :=
  let path :=
    if file && !raw.isEmpty && isNormalDriveLetter (path.drop 1) && !path.isEmpty then path ++ ['/']
    else path
  let segment := percentEncode inPathSet raw
  let tail := if slash then ['/'] else []
  if isDoubleDot segment then
    let p := if path.getLast? = some '/' ∧ canDropSlash path then path.dropLast else path
    let p := shorten file p
    if slash ∧ p.getLast? ≠ some '/' then p ++ ['/'] else p
  else if isSingleDot segment then
    if path.getLast? = some '/' then path else path ++ ['/']
  else
    match segment with
    | [a, b] => if file && isDriveLetter [a, b] then path ++ [a, ':'] ++ tail else path ++ segment ++ tail
    | _ => path ++ segment ++ tail

/-- Adds segments up to a query or fragment; the pending segment comes last character first. -/
def addPath (rules : Rules) (path pending : List Char) : List Char → List Char × List Char
  | [] => (addSegment (rules == .file) path pending.reverse false, [])
  | c :: cs =>
    if c = '/' ∨ (c = '\\' ∧ rules.isSpecial) then
      addPath rules (addSegment (rules == .file) path pending.reverse true) [] cs
    else if c = '?' ∨ c = '#' then
      (addSegment (rules == .file) path pending.reverse false, c :: cs)
    else addPath rules path (c :: pending) cs

/-- The path that segments add to a start. Paths of files have one slash in front. -/
def readPath (rules : Rules) (start cs : List Char) : List Char × List Char :=
  let (path, rest) := addPath rules start [] cs
  (if rules = .file then '/' :: path.dropWhile (· = '/') else path, rest)

/-- The path after an authority. -/
def readPathStart (rules : Rules) (cs : List Char) : List Char × List Char :=
  if rules.isSpecial then
    match cs with
    | c :: r => if c = '/' ∨ c = '\\' then readPath rules ['/'] r else readPath rules ['/'] cs
    | [] => readPath rules ['/'] []
  else
    match cs with
    | '?' :: _ => ([], cs)
    | '#' :: _ => ([], cs)
    | '/' :: _ => readPath rules [] cs
    | [] => readPath rules [] []
    | _ => readPath rules ['/'] cs

/-! ## Queries and fragments -/

/-- The URL with the query and fragment that a text writes; the text is empty or starts with one. -/
def withTail (u : Url) (cs : List Char) : Url :=
  let fragment (r : List Char) := percentEncode inFragmentSet r
  match cs with
  | '?' :: r =>
    let q := r.takeWhile (· ≠ '#')
    let set := if (Rules.of u.scheme).isSpecial then inSpecialQuerySet else inQuerySet
    let rest := r.dropWhile (· ≠ '#')
    { u with
      query := some (percentEncode set q)
      fragment := if rest.isEmpty then none else some (fragment (rest.drop 1)) }
  | '#' :: r => { u with query := none, fragment := some (fragment r) }
  | _ => { u with query := none, fragment := none }

/-- The base with another fragment. -/
def withFragment (base : Url) (cs : List Char) : Url :=
  { base with fragment := some (percentEncode inFragmentSet cs) }

/-! ## Authorities -/

/-- Ends the authority. -/
def isAuthorityEnd (rules : Rules) (c : Char) : Bool :=
  c == '/' || c == '?' || c == '#' || (c == '\\' && rules.isSpecial)

/-- User and password as written before the at sign. -/
def encodeUser (cs : List Char) : List Char :=
  match Text.splitOnce ':' cs with
  | none => percentEncode inUserSet cs ++ ['@']
  | some (user, secret) =>
    if user.isEmpty && secret.isEmpty then []
    else
      percentEncode inUserSet user ++
        (if secret.isEmpty then [] else ':' :: percentEncode inUserSet secret) ++ ['@']

/-- The user part and the text after it: the last at sign of the authority ends it. -/
def splitUser (rules : Rules) (cs : List Char) : Except Fault (List Char × List Char) :=
  let authority := cs.takeWhile (!isAuthorityEnd rules ·)
  if !authority.contains '@' then .ok ([], cs)
  else
    let after := (authority.reverse.takeWhile (· ≠ '@')).length
    let user := authority.take (authority.length - after - 1)
    let rest := cs.drop (user.length + 1)
    if user.isEmpty then
      match rest with
      | c :: _ => if isAuthorityEnd rules c then .error .emptyHost else .ok ([], rest)
      | [] => .ok ([], rest)
    else .ok (encodeUser user, rest)

/-- The host text: up to a separator or to a colon outside brackets. -/
def spanHost (rules : Rules) (inside : Bool) : List Char → List Char × List Char
  | [] => ([], [])
  | c :: cs =>
    if (c = ':' ∧ !inside) ∨ isAuthorityEnd rules c then ([], c :: cs)
    else
      let (h, r) := spanHost rules (c == '[' || (inside && c != ']')) cs
      (c :: h, r)

/-- What may follow a port, or the host of a file. -/
def endsPort (c : Char) : Bool := ['/', '\\', '?', '#'].contains c

/-- A port after its colon; the port that the scheme implies is left out. -/
def readPort (scheme cs : List Char) : Except Fault (Option Nat × List Char) :=
  let digits := cs.takeWhile Text.isDigit
  let rest := cs.dropWhile Text.isDigit
  if 65535 < Text.digitsValue digits then .error .badPort
  else
    match rest with
    | c :: _ =>
      if !endsPort c then .error .badPort
      else .ok (finish digits, rest)
    | [] => .ok (finish digits, rest)
where
  finish (digits : List Char) : Option Nat :=
    if digits.isEmpty ∨ defaultPort? scheme = some (Text.digitsValue digits) then none
    else some (Text.digitsValue digits)

/-- What follows the two slashes of a scheme. -/
def readAuthority (scheme cs : List Char) : Except Fault Url := do
  let rules := Rules.of scheme
  let (user, rest) ← splitUser rules cs
  let (hostText, rest) := spanHost rules false rest
  if rules = .special ∧ hostText.isEmpty then throw .emptyHost
  let host ← if rules.isSpecial then specialHost hostText else opaqueHost hostText
  let (port, rest) ← match rest with
    | ':' :: r => if host.isEmpty then throw .emptyHost else readPort scheme r
    | _ => pure (none, rest)
  if host.isEmpty ∧ !user.isEmpty then throw .emptyHost
  let (path, rest) := readPathStart rules rest
  return withTail ⟨scheme, some ⟨user, host, port⟩, path, none, none⟩ rest

/-! ## File URLs -/

private def fileScheme : List Char := "file".toList

private def fileUrl (host path rest : List Char) : Url :=
  withTail ⟨fileScheme, some ⟨[], host, none⟩, path, none, none⟩ rest

/-- The host after `file://` and the path; a drive letter is no host, and the local host is none. -/
def readFileHost (cs : List Char) : Except Fault Url := do
  let text := cs.takeWhile fun c => !endsPort c
  let rest := cs.drop text.length
  if isDriveLetter text then
    let (path, rest) := readPath .file ['/'] cs
    return fileUrl [] path rest
  if text.isEmpty then
    let (path, rest) := readPath .file ['/'] rest
    return fileUrl [] path rest
  let host ← specialHost text
  if host = "localhost".toList then
    let (path, rest) := readPath .file ['/'] rest
    return fileUrl [] path rest
  let (path, rest') := readPathStart .file rest
  let drive := match rest with
    | _ :: r => startsWithDriveLetter r
    | [] => false
  return fileUrl (if drive then [] else host) path rest'

/-- A file URL, read against a base that is one too if there is one. -/
def readFile (base : Option Url) (cs : List Char) : Except Fault Url :=
  let isSlash (c : Char) : Bool := c == '/' || c == '\\'
  match cs with
  | a :: b :: rest =>
    if isSlash a && isSlash b then readFileHost rest
    else if isSlash a then .ok (rooted base (a :: b :: rest))
    else .ok (relative base cs)
  | [a] => .ok (if isSlash a then rooted base [a] else relative base [a])
  | [] => .ok (relative base [])
where
  /-- A path from the root, on the host or the drive of the base. -/
  rooted (base : Option Url) (cs : List Char) : Url :=
    let (host, start) := match base with
      | some b =>
        let segment := (b.path.drop 1).takeWhile (· ≠ '/')
        if startsWithDriveLetter (cs.drop 1) then ([], [])
        else if isNormalDriveLetter segment then ([], '/' :: segment)
        else ((b.authority.map (·.host)).getD [], [])
      | none => ([], [])
    let (path, rest) := readPath .file start cs
    fileUrl host path rest
  /-- A path from the directory of the base. -/
  relative (base : Option Url) (cs : List Char) : Url :=
    match base with
    | none =>
      let (path, rest) := readPath .file ['/'] cs
      fileUrl [] path rest
    | some b =>
      match cs with
      | [] => { b with fragment := none }
      | '?' :: _ => withTail b cs
      | '#' :: r => withFragment b r
      | _ =>
        if startsWithDriveLetter cs then
          let (path, rest) := readPath .file [] cs
          fileUrl [] path rest
        else
          let (path, rest) := readPath .file (shorten true b.path) cs
          withTail { b with path := path } rest

/-! ## References -/

/-- A reference without a scheme, read against a base that is no file. -/
def readRelative (base : Url) (cs : List Char) : Except Fault Url :=
  let rules := Rules.of base.scheme
  match cs with
  | [] => .ok { base with fragment := none }
  | '?' :: _ => .ok (withTail base cs)
  | '#' :: r => .ok (withFragment base r)
  | c :: r =>
    if c = '/' ∨ c = '\\' then
      let slashes := cs.takeWhile fun c => c == '/' || c == '\\'
      if 2 ≤ slashes.length then
        match cs with
        | '/' :: '/' :: after => readAuthority base.scheme after
        | _ => readAuthority base.scheme (cs.drop slashes.length)
      else
        let (path, rest) := readPath rules ['/'] r
        .ok (withTail { base with path := path } rest)
    else
      let start := popSegment false base.path
      let start := if start.isEmpty then ['/'] else start
      let (path, rest) := readPath rules start cs
      .ok (withTail { base with path := path } rest)

/-- The scheme in front of a text, in small letters, and what follows its colon. -/
def splitScheme (cs : List Char) : Option (List Char × List Char) :=
  match cs with
  | [] => none
  | c :: _ =>
    if !Text.isAsciiLetter c then none
    else
      let isSchemeChar (c : Char) : Bool := Text.isAsciiAlnum c || c == '+' || c == '-' || c == '.'
      match cs.dropWhile isSchemeChar with
      | ':' :: rest => some ((cs.takeWhile isSchemeChar).map Char.toLower, rest)
      | _ => none

/-- A text with a scheme. -/
def readSchemed (base : Option Url) (scheme cs : List Char) : Except Fault Url :=
  match Rules.of scheme with
  | .file => readFile (base.filter (·.scheme = fileScheme)) cs
  | .special =>
    let slashes := cs.takeWhile fun c => c == '/' || c == '\\'
    match base.filter (·.scheme = scheme) with
    | some b =>
      if slashes.length < 2 then readRelative b cs
      else readAuthority scheme (cs.drop slashes.length)
    | none => readAuthority scheme (cs.drop slashes.length)
  | .plain =>
    match cs with
    | '/' :: '/' :: rest => readAuthority scheme rest
    | '/' :: rest =>
      let (path, rest) := readPath .plain ['/'] rest
      .ok (withTail ⟨scheme, none, path, none, none⟩ rest)
    | _ =>
      let isEnd (c : Char) : Bool := c == '?' || c == '#'
      let path := percentEncode (fun _ => false) (cs.takeWhile (!isEnd ·))
      .ok (withTail ⟨scheme, none, path, none, none⟩ (cs.dropWhile (!isEnd ·)))

/-- The text without controls and blanks at its ends, and without line breaks and tabs. -/
def clean (text : String) : List Char :=
  let low (c : Char) : Bool := c.toNat ≤ 0x20
  let cs := ((text.toList.dropWhile low).reverse.dropWhile low).reverse
  cs.filter fun c => c != '\t' && c != '\n' && c != '\r'

/-- Reads a text as a URL, against a base if there is one. -/
def parse (base : Option Url) (text : String) : Except Fault Url :=
  let cs := clean text
  match splitScheme cs with
  | some (scheme, rest) => readSchemed base scheme rest
  | none =>
    match base with
    | none => .error .relative
    | some b =>
      match cs with
      | '#' :: r => .ok (withFragment b r)
      | _ =>
        if b.isOpaque then .error .opaqueBase
        else if Rules.of b.scheme = .file then readFile (some b) cs
        else readRelative b cs

/-- Reads `base`, then `reference` against it. -/
def join (base reference : String) : Except String String :=
  let joined : Except Fault String := do
    let b ← parse none base
    let u ← parse (some b) reference
    return u.write
  joined.mapError Fault.message

end Url
end PageSpec
