import PageSpec.Functions.Utility
import PageSpec.Text.Find
/-!
A small command language: simple commands joined by semicolons, `&&` and `||`, with quotes and
redirections. It is enough to start the small programs with, where there are no others.
-/
namespace PageSpec.Functions.Shell

inductive Token where
  | word (s : String)
  /-- `;` or the end of a line. -/
  | next
  | andThen
  | orElse
  /-- A redirection of stream 1 or 2, onto the other stream or into a file. -/
  | redirect (stream : Nat) (append : Bool)
  | join (stream target : Nat)
  deriving DecidableEq, Repr

/-- Where the reader stands. -/
inductive Mode where
  | plain | single | double
  deriving DecidableEq, Repr

private def closing (cur : Option (List Char)) (rest : List Token) : List Token :=
  match cur with
  | some cs => .word (.ofList cs.reverse) :: rest
  | none => rest

private def withChar (cur : Option (List Char)) (c : Char) : Option (List Char) :=
  some (c :: cur.getD [])

/-- The stream that digits before a redirection name, and the word that is left. -/
private def streamOf : Option (List Char) → Nat × Option (List Char)
  | some ['2'] => (2, none)
  | some ['1'] => (1, none)
  | cur => (1, cur)

/-- The tokens of a script; `cur` is the open word, last character first. -/
def tokens : Mode → Option (List Char) → List Char → List Token
  | _, cur, [] => closing cur []
  | .single, cur, '\'' :: rest => tokens .plain cur rest
  | .single, cur, c :: rest => tokens .single (withChar cur c) rest
  | .double, cur, '"' :: rest => tokens .plain cur rest
  | .double, cur, '\\' :: d :: rest =>
    if d = '"' ∨ d = '\\' ∨ d = '$' then tokens .double (withChar cur d) rest
    else tokens .double (withChar (withChar cur '\\') d) rest
  | .double, cur, c :: rest => tokens .double (withChar cur c) rest
  | .plain, cur, '\'' :: rest => tokens .single (some (cur.getD [])) rest
  | .plain, cur, '"' :: rest => tokens .double (some (cur.getD [])) rest
  | .plain, cur, '\\' :: d :: rest => tokens .plain (withChar cur d) rest
  | .plain, cur, '&' :: '&' :: rest => closing cur (.andThen :: tokens .plain none rest)
  | .plain, cur, '|' :: '|' :: rest => closing cur (.orElse :: tokens .plain none rest)
  | .plain, cur, '>' :: '&' :: '1' :: rest =>
    closing (streamOf cur).2 (.join (streamOf cur).1 1 :: tokens .plain none rest)
  | .plain, cur, '>' :: '&' :: '2' :: rest =>
    closing (streamOf cur).2 (.join (streamOf cur).1 2 :: tokens .plain none rest)
  | .plain, cur, '>' :: '>' :: rest =>
    closing (streamOf cur).2 (.redirect (streamOf cur).1 true :: tokens .plain none rest)
  | .plain, cur, c :: rest =>
    if c = '>' then
      closing (streamOf cur).2 (.redirect (streamOf cur).1 false :: tokens .plain none rest)
    else if c = '\n' ∨ c = ';' then closing cur (.next :: tokens .plain none rest)
    else if c = ' ' ∨ c = '\t' then closing cur (tokens .plain none rest)
    else tokens .plain (withChar cur c) rest

/-- When a command runs, going by the code of the one before. -/
inductive Condition where
  | always | onSuccess | onFailure
  deriving DecidableEq, Repr

/-- One simple command. -/
structure Command where
  condition : Condition
  words : List String
  joins : List (Nat × Nat)
  /-- Streams into files, and whether the file is appended to. -/
  redirects : List (Nat × Bool × String)
  deriving Repr

/-- The commands of some tokens; `c` is the one being read. -/
def commands (c : Command) : List Token → List Command
  | [] => [c]
  | .word w :: rest => commands { c with words := c.words ++ [w] } rest
  | .next :: rest => c :: commands ⟨.always, [], [], []⟩ rest
  | .andThen :: rest => c :: commands ⟨.onSuccess, [], [], []⟩ rest
  | .orElse :: rest => c :: commands ⟨.onFailure, [], [], []⟩ rest
  | .join s t :: rest => commands { c with joins := c.joins ++ [(s, t)] } rest
  | .redirect s a :: .word w :: rest => commands { c with redirects := c.redirects ++ [(s, a, w)] } rest
  | .redirect _ _ :: rest => commands c rest

/-- A script underway. -/
structure Progress where
  out : List UInt8
  err : List UInt8
  code : Nat
  files : Files

/-- The text that a file holds after some bytes went into it. -/
private def writeInto (here : List String) (files : Files) (append : Bool) (path : String)
    (bytes : List UInt8) : Files :=
  if path = "/dev/null" then files
  else
    let before := match files.entryFrom here path with
      | .ok (.text s) => if append then s else ""
      | _ => ""
    let text := (String.fromUTF8? ⟨bytes.toArray⟩).getD ""
    match files.writeFrom here path (.text (before ++ text)) with
    | .ok files => files
    | .error _ => files

/-- Adds the streams of a command to a script's, redirections first. -/
private def absorb (here : List String) (p : Progress) (c : Command) (o : Outcome) (code : Nat) :
    Progress :=
  let (out, err) := c.joins.foldl (fun (out, err) (s, t) =>
    if s = 1 ∧ t = 2 then ([], err ++ out) else if s = 2 ∧ t = 1 then (out ++ err, []) else (out, err))
    (o.out, o.err)
  let (out, err, files) := c.redirects.foldl (fun (out, err, files) (s, append, path) =>
    if s = 1 then ([], err, writeInto here files append path out)
    else (out, [], writeInto here files append path err)) (out, err, o.files)
  ⟨p.out ++ out, p.err ++ err, code, files⟩

/-- Runs the commands of a script one by one. -/
def run (here : List String) (p : Progress) : List Command → Outcome
  | [] => ⟨p.out, p.err, .code p.code, p.files⟩
  | c :: rest =>
    let due := match c.condition with
      | .always => true
      | .onSuccess => p.code = 0
      | .onFailure => p.code ≠ 0
    if !due then run here p rest
    else
      match c.words with
      | [] => run here p rest
      | "exit" :: args =>
        ⟨p.out, p.err, .code (((args.head?.bind String.toNat?).getD p.code) % 256), p.files⟩
      | ["kill", "-9", "$$"] => ⟨p.out, p.err, .killed, p.files⟩
      | [":"] => run here { p with code := 0 } rest
      | name :: args =>
        match simple here p.files name args true with
        | some o =>
          let code := match o.ending with
            | .code n => n
            | .killed => 137
          run here (absorb here p c o code) rest
        | none =>
          let o : Outcome := ⟨[], bytesOf s!"sh: 1: {name}: not found\n", .code 127, p.files⟩
          run here (absorb here p c o 127) rest

/-- What a script leaves behind. -/
def script (here : List String) (files : Files) (text : String) : Outcome :=
  run here ⟨[], [], 0, files⟩ (commands ⟨.always, [], [], []⟩ (tokens .plain none text.toList))

/-- Starts a small program or a script in a directory. Nothing else can be started. -/
def start : Starter := fun files program args directory => do
  let here ← match directory with
    | none => pure files.home
    | some d =>
      let at_ ← files.location d
      match files.at? at_ with
      | some .directory => pure at_
      | some _ => throw .notDirectory
      | none => throw .notFound
  let name := match Text.after? "/bin/".toList program.toList with
    | some r => String.ofList r
    | none => (Text.after? "/usr/bin/".toList program.toList).elim program String.ofList
  match name, args with
  | "sh", "-c" :: text :: _ => return script here files text
  | "printf", [] => return ⟨[], bytesOf "printf: missing operand\n", .code 1, files⟩
  | _, _ =>
    match simple here files name args false with
    | some o => return o
    | none =>
      if name.toList.contains '/' && (files.entryFrom here name).isOk then throw .denied
      else throw .notFound

end PageSpec.Functions.Shell
