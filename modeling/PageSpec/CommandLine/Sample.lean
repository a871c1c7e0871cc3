import PageSpec.Files.Basic
/-!
A sample project: a document with what a document can hold, the document that it runs before its
cases, and a function bag. `Sample.write` puts it into a directory and keeps what is there, unless
it is told not to.
-/
namespace PageSpec.Sample

private def text (lines : List String) : String := String.join (lines.map (· ++ "\n"))

/-- A document with hooks, functions, repetition and frames. -/
def document : String :=
  text [
    "\x7b",
    "  \"describe\": \x7b",
    "    \"text\": \"Example feature\",",
    "    \"url\": \"/\",",
    "    \"before\": \"../hooks/before-example.json\",",
    "    \"search\": \x7b",
    "      \"title\": \"searches and opens every result\",",
    "      \"actions\": [",
    "        \x7b \"run\": \"token\", \"as\": \"authToken\" \x7d,",
    "        \x7b \"type\": \"faker.internet.email()\", \"loc\": \"#email\" \x7d,",
    "        \x7b \"click\": \"button > Search\" \x7d,",
    "        \x7b \"exist\": \"#results\", \"forEach\": \x7b",
    "            \"items\": \"#results li\",",
    "            \"actions\": [",
    "              \x7b \"getText\": \"a\" \x7d,",
    "              \x7b \"expectVisible\": \x7b \"loc\": \"a\" \x7d \x7d",
    "            ]",
    "        \x7d \x7d,",
    "        \x7b \"expectText\": \x7b \"loc\": \"#token\", \"equals\": \"\x7bauthToken\x7d\" \x7d \x7d",
    "      ]",
    "    \x7d,",
    "    \"embedded\": \x7b",
    "      \"title\": \"reads text inside nested frames\",",
    "      \"url\": \"/embedded\",",
    "      \"actions\": [",
    "        \x7b \"expectText\": \x7b \"loc\": \"h1\", \"contains\": \"Welcome\" \x7d, \"frame\": [\"#outer\", \"#inner\"] \x7d,",
    "        \x7b \"screenshot\": \x7b \"path\": \"screenshots/embedded.png\", \"fullPage\": true \x7d \x7d",
    "      ]",
    "    \x7d",
    "  \x7d",
    "\x7d"]

/-- The document that runs before the cases of the sample. -/
def hook : String :=
  text [
    "\x7b",
    "  \"describe\": \x7b",
    "    \"text\": \"Shared setup\",",
    "    \"url\": \"/login\",",
    "    \"login\": \x7b",
    "      \"title\": \"signs in\",",
    "      \"actions\": [",
    "        \x7b \"type\": \"demo\", \"loc\": \"#user\" \x7d,",
    "        \x7b \"type\": \"secret\", \"loc\": \"#password\" \x7d,",
    "        \x7b \"press\": \"Enter\" \x7d,",
    "        \x7b \"expectUrl\": \x7b \"contains\": \"/home\" \x7d \x7d",
    "      ]",
    "    \x7d",
    "  \x7d",
    "\x7d"]

/-- The functions of the sample. -/
def functions : String :=
  text [
    "# Functions available to the `run` action.",
    "token:",
    "  value: \"demo-token\"",
    "today:",
    "  command: date",
    "  args: [\"+%Y-%m-%d\"]"]

/-- The files of the sample, from the directory of the project. -/
def files : List (String × String) :=
  [("fixtures/example.json", document), ("hooks/before-example.json", hook),
    ("help/plugin-func.yaml", functions)]

/-- Makes the directories above a file. -/
def makeAbove (path : String) (f : Files) : Except IoFault Unit × Files :=
  match Path.parent? path with
  | some dir => f.makeAll dir
  | none => (.ok (), f)

/-- Writes a file, with the directories above it; what is there stays unless `force` is set. -/
def place (force : Bool) (path content : String) (f : Files) : Except IoFault (Option Files) :=
  if f.exists_ path && !force then .ok none
  else
    match makeAbove path f with
    | (.error e, _) => .error e
    | (.ok (), f) => (f.write path (.text content)).map some

/-- Writes files below a directory in order, up to the first that fails, whose directories stay; the
answer has the paths of those that were written. -/
def writeAll (root : String) (force : Bool) :
    List (String × String) → Files → Except IoFault (List String) × Files
  | [], f => (.ok [], f)
  | (name, content) :: rest, f =>
    let path := Path.join root name
    match place force path content f with
    | .error e => (.error e, (makeAbove path f).2)
    | .ok none => writeAll root force rest f
    | .ok (some f) =>
      let (r, f) := writeAll root force rest f
      (r.map (path :: ·), f)

/-- Writes the sample into a directory. -/
def write (root : String) (force : Bool) (f : Files) : Except IoFault (List String) × Files :=
  writeAll root force files f

end PageSpec.Sample
