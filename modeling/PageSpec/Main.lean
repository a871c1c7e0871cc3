import PageSpec.CommandLine.Program
import PageSpec.Functions.Shell
import PageSpec.Page.Session
import PageSpec.Url.Basic
/-!
The program. It works on the files below the working directory, and has no browser.
-/
namespace PageSpec.CommandLine

/-- Adds the entries of a directory and what is below them; what cannot be read is left out. -/
partial def gather (here : List String) (entries : Array IO.FS.DirEntry) (f : Files) : IO Files :=
  entries.foldlM (fun f e => do
    let at_ := here ++ [e.fileName]
    try
      match (← e.path.metadata).type with
      | .dir => gather at_ (← e.path.readDir) (f.put at_ .directory)
      | .file =>
        let bytes ← IO.FS.readBinFile e.path
        return f.put at_ (match String.fromUTF8? bytes with
          | some s => .text s
          | none => .picture bytes.toList)
      | _ => return f
    catch _ => return f) f

/-- Writes the entries that are not as they were. -/
def store (before after : Files) : IO Unit := do
  for (l, e) in after.entries do
    if before.at? l ≠ some e then
      let path := "/" ++ "/".intercalate l
      match e with
      | .directory => IO.FS.createDirAll path
      | .text s => IO.FS.writeFile path s
      | .picture bytes => IO.FS.writeBinFile path (.mk bytes.toArray)

/-- The variables that are looked at. -/
def environment : IO (String → Option String) := do
  let names := "CLICOLOR_FORCE" ::
    ([runForm, checkForm, initForm].flatMap (·.options)).filterMap (·.standIn)
  let found ← names.mapM fun name => return (name, ← IO.getEnv name)
  return fun name => (found.lookup name).join

/-- What is around the program. Without a browser nothing reads the clock or takes a key. -/
def surroundings (env : String → Option String) : IO Surroundings := do
  return { env := env, terminal := ← (← IO.getStderr).isTty
           starter := Functions.Shell.start, join := Url.join, supply := default }

/-- Reads words, carries them out, and gives the exit code. -/
def execute (words : List String) : IO Nat := do
  let env ← environment
  match Invocation.ofWords env words with
  | .error stop =>
    if stop.isAnswer then IO.println stop.message else IO.eprintln stop.message
    return stop.exitCode
  | .ok invocation =>
    let place ← IO.currentDir
    let home := place.components.filter (· ≠ "")
    let files ← gather home (← place.readDir) (.under home)
    let noBrowser : RunOptions → Except Fault Page := fun _ => .error .noBrowser
    let (outcome, after) := invocation.perform noBrowser (← surroundings env) files
    store files after
    outcome.printed.forM IO.println
    outcome.errors.forM IO.eprintln
    return outcome.exitCode

end PageSpec.CommandLine

def main (words : List String) : IO UInt32 := do
  return .ofNat (← PageSpec.CommandLine.execute words)
