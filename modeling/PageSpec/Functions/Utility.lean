import PageSpec.Functions.Program
/-!
Small programs for functions to start: they print texts and files.
-/
namespace PageSpec.Functions

def bytesOf (s : String) : List UInt8 := s.toUTF8.toList

/-! ## Written escapes -/

def isOctal (c : Char) : Bool := '0' ≤ c && c ≤ '7'

/-- The byte of a short escape. -/
def shortEscape (c : Char) : Option UInt8 :=
  match c with
  | 'n' => some 10
  | 't' => some 9
  | 'r' => some 13
  | 'a' => some 7
  | 'b' => some 8
  | 'f' => some 12
  | 'v' => some 11
  | 'e' => some 27
  | '\\' => some 92
  | '"' => some 34
  | _ => none

def octalValue (cs : List Char) : Nat := cs.foldl (fun n c => n * 8 + (c.toNat - 48)) 0

/-- The bytes of a text with its escapes replaced; up to three octal digits name a byte. -/
def unescape (cs : List Char) : List UInt8 :=
  match cs with
  | [] => []
  | '\\' :: c :: rest =>
    match shortEscape c with
    | some b => b :: unescape rest
    | none =>
      if isOctal c then
        let more := (rest.takeWhile isOctal).take 2
        .ofNat (octalValue (c :: more)) :: unescape (rest.drop more.length)
      else bytesOf "\\" ++ bytesOf (String.singleton c) ++ unescape rest
  | c :: rest => bytesOf (String.singleton c) ++ unescape rest
termination_by cs.length
decreasing_by
  · simp only [List.length_cons]; omega
  · simp only [List.length_cons, List.length_drop]; omega
  · simp only [List.length_cons]; omega
  · simp only [List.length_cons]; omega

/-- A piece of a format. -/
inductive FormatPiece where
  | bytes (bs : List UInt8)
  | argument
  deriving DecidableEq, Repr

/-- The pieces of a format; `%s` and `%d` stand for arguments. -/
def formatPieces (pending : List Char) : List Char → List FormatPiece
  | '%' :: '%' :: rest => formatPieces ('%' :: pending) rest
  | '%' :: c :: rest =>
    if c = 's' ∨ c = 'd' ∨ c = 'i' then
      .bytes (unescape pending.reverse) :: .argument :: formatPieces [] rest
    else formatPieces (c :: '%' :: pending) rest
  | '\\' :: '%' :: rest => formatPieces ('%' :: '\\' :: pending) rest
  | c :: rest => formatPieces (c :: pending) rest
  | [] => [.bytes (unescape pending.reverse)]

/-- The pieces with arguments filled in, and the arguments left over. -/
def fillFormat : List FormatPiece → List String → List UInt8 × List String
  | [], args => ([], args)
  | .bytes bs :: ps, args =>
    let (r, rest) := fillFormat ps args
    (bs ++ r, rest)
  | .argument :: ps, [] => fillFormat ps []
  | .argument :: ps, a :: args =>
    let (r, rest) := fillFormat ps args
    (bytesOf a ++ r, rest)

/-- The format, used again while arguments are left. -/
def repeatFormat (ps : List FormatPiece) : Nat → List String → List UInt8
  | 0, _ => []
  | n + 1, args =>
    let (r, rest) := fillFormat ps args
    if rest.isEmpty || !ps.contains .argument then r else r ++ repeatFormat ps n rest

/-! ## The programs -/

/-- The arguments with blanks between them; escapes are replaced if asked for. -/
def echo (escapes : Bool) : List String → List UInt8
  | "-n" :: args => line args
  | args => line args ++ [10]
where
  line (args : List String) : List UInt8 :=
    let text := " ".intercalate args
    if escapes then unescape text.toList else bytesOf text

/-- The contents of files, one after another; missing ones are complained about. -/
def cat (here : List String) (files : Files) : List String → List UInt8 × List UInt8 × Nat
  | [] => ([], [], 0)
  | p :: ps =>
    let (out, err, code) := cat here files ps
    match files.entryFrom here p with
    | .ok (.text s) => (bytesOf s ++ out, err, code)
    | .ok (.picture bs) => (bs ++ out, err, code)
    | .ok .directory => (out, bytesOf s!"cat: {p}: Is a directory\n" ++ err, 1)
    | .error .notDirectory => (out, bytesOf s!"cat: {p}: Not a directory\n" ++ err, 1)
    | .error _ => (out, bytesOf s!"cat: {p}: No such file or directory\n" ++ err, 1)

/-- A program that only writes to its streams. -/
def simple (here : List String) (files : Files) (name : String) (args : List String)
    (escapes : Bool) : Option Outcome :=
  match name with
  | "echo" => some ⟨echo escapes args, [], .code 0, files⟩
  | "true" => some ⟨[], [], .code 0, files⟩
  | "false" => some ⟨[], [], .code 1, files⟩
  | "cat" =>
    let (out, err, code) := cat here files args
    some ⟨out, err, .code code, files⟩
  | "printf" =>
    match args with
    | [] => none
    | f :: rest =>
      some ⟨repeatFormat (formatPieces [] f.toList) (rest.length + 1) rest, [], .code 0, files⟩
  | _ => none

end PageSpec.Functions
