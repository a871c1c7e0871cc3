import PageSpec.Decimal.Binary64
import PageSpec.Dynamic.Calendar
import PageSpec.Dynamic.Dice
import PageSpec.Json.Printer
import PageSpec.Text.Find
/-!
Generators of made-up data: names, addresses, words, numbers, dates. Each has a dotted path and
takes JSON arguments; arguments that are missing or of another kind count as their defaults.
-/
namespace PageSpec.Dynamic

/-- What a generator makes. -/
inductive Made where
  | value (v : Json)
  | moment (m : Moment)

/-- The text of what was made. -/
def Made.text : Made → String
  | .moment m => m.toUtcText
  | .value (.str s) => s
  | .value v => v.text

/-- A generator: from its arguments and the time it is called at. -/
abbrev Generator := List Json → Moment → Draw Made

namespace Generator

/-! ## Tables -/

def firstNames : List String := [
  "Ana", "Bruno", "Carla", "Daniel", "Elena", "Felipe", "Gabriela", "Hugo", "Isabela",
  "João", "Laura", "Marcos", "Natália", "Otávio", "Paula", "Rafael", "Sofia", "Tiago",
  "Alice", "Ben", "Chloe", "David", "Emma", "Frank", "Grace", "Henry", "Olivia", "Liam"]
def lastNames : List String := [
  "Silva", "Santos", "Oliveira", "Souza", "Pereira", "Costa", "Almeida", "Ribeiro",
  "Carvalho", "Gomes", "Martins", "Rocha", "Smith", "Johnson", "Brown", "Taylor",
  "Miller", "Wilson", "Moore", "Clark"]
def jobTitles : List String := [
  "Software Engineer", "Product Manager", "QA Analyst", "Designer", "Data Scientist",
  "Support Specialist", "Account Executive", "Operations Lead"]
def emailDomains : List String := ["example.com", "example.org", "example.net", "test.dev"]
def topDomains : List String := ["com", "org", "net", "io", "dev", "com.br"]
def wordTable : List String := [
  "lorem", "ipsum", "dolor", "sit", "amet", "consectetur", "adipiscing", "elit", "sed",
  "do", "eiusmod", "tempor", "incididunt", "ut", "labore", "et", "dolore", "magna",
  "aliqua", "enim", "minim", "veniam", "quis", "nostrud", "exercitation", "ullamco"]
def cities : List String := [
  "São Paulo", "Rio de Janeiro", "Belo Horizonte", "Curitiba", "Recife", "Porto Alegre",
  "Lisbon", "Boston", "Austin", "Denver", "Toronto", "Madrid"]
def countries : List String := [
  "Brazil", "Portugal", "United States", "Canada", "Spain", "Argentina", "Chile", "Mexico"]
def streets : List String := [
  "Rua das Flores", "Avenida Paulista", "Main Street", "Oak Avenue", "Rua Augusta",
  "Elm Street", "Avenida Brasil", "Maple Drive"]
def companySuffixes : List String := ["Ltda", "S.A.", "Inc", "LLC", "Group", "Labs"]
def letters : List Char := "abcdefghijklmnopqrstuvwxyzABCDEFGHIJKLMNOPQRSTUVWXYZ".toList
def digits : List Char := "0123456789".toList

/-! ## Arguments -/

/-- A number given as the first argument, or under a name in it. -/
def number? (args : List Json) (name : String) : Option Float :=
  match args with
  | .obj fs :: _ => (Fields.get? fs name).bind Json.number?
  | v :: _ => v.number?
  | [] => none

/-- A named option of the first argument. -/
def option? (args : List Json) (name : String) : Option Json :=
  args.head?.bind (·.field? name)

def textOption? (args : List Json) (name : String) : Option String :=
  (option? args name).bind Json.str?

/-- A double cut to a whole number of 64 bits with a sign; beyond that the nearest bound counts. -/
def toInt64 (x : Float) : Int :=
  if x.isNaN then 0
  else if 9223372036854775808.0 ≤ x then greatestInt64
  else if x ≤ -9223372036854775808.0 then leastInt64
  else (Binary64.ofFloat x).truncated

/-- A double cut to a count. -/
def toCount (x : Float) : Nat :=
  if 18446744073709551616.0 ≤ x then twoTo 64 - 1 else (Binary64.ofFloat x).truncated.toNat

def larger (x y : Float) : Float := if x < y then y else x
def smaller (x y : Float) : Float := if y < x then y else x

/-- A length argument. -/
def length (args : List Json) (default : Nat) : Nat :=
  match number? args "length" with
  | some x => toCount (larger x 0.0)
  | none => default

/-- A count argument of at least one. -/
def count? (args : List Json) (name : String) : Option Nat :=
  (number? args name).map fun x => toCount (larger x 1.0)

/-! ## Texts -/

private def text (s : String) : Made := .value (.str s)
private def pick (items : List String) : Draw String := Draw.choose items ""
private def picked (items : List String) : Generator := fun _ _ => return text (← pick items)

/-- Some characters of an alphabet. -/
def string (alphabet : List Char) : Nat → Draw (List Char)
  | 0 => return []
  | n + 1 => do
    let c ← Draw.choose alphabet ' '
    return c :: (← string alphabet n)

private def stringOf (alphabet : List Char) (default : Nat) : Generator := fun args _ => do
  return text (.ofList (← string alphabet (length args default)))

/-- The basic letters and digits of a text, in small letters. -/
def slug (s : String) : String :=
  .ofList ((s.toList.filter Text.isAsciiAlnum).map Char.toLower)

def fullName : Generator := fun _ _ => do
  let first ← pick firstNames
  let last ← pick lastNames
  return text s!"{first} {last}"

def sex : Generator := fun _ _ => do
  return text (if ← Draw.coin then "female" else "male")

/-- A name or a table to pick it from. -/
private def given (name : Option String) (table : List String) : Draw String :=
  match name with
  | some s => return s
  | none => pick table

def userNameText (args : List Json) : Draw String := do
  let first ← given (textOption? args "firstName") firstNames
  let last ← given (textOption? args "lastName") lastNames
  let sep ← pick [".", "_", ""]
  let n ← Draw.belowSmall 999
  return s!"{slug first}{sep}{slug last}{n + 1}"

def userName : Generator := fun args _ => return text (← userNameText args)

def email : Generator := fun args _ => do
  let user ← userNameText args
  let domain ← given (textOption? args "provider") emailDomains
  return text s!"{user}@{domain}"

def domainText : Draw String := do
  let word ← pick wordTable
  let top ← pick topDomains
  let second ← pick wordTable
  return s!"{word}-{second}.{top}"

def domainName : Generator := fun _ _ => return text (← domainText)

def webAddress : Generator := fun _ _ => do
  let domain ← domainText
  return text s!"https://{domain}"

def ipv4 : Generator := fun _ _ => do
  return text (".".intercalate ((← Draw.bytes 4).map toString))

private def hexByte (n : Nat) : List Char := Nat.toDigits 16 (n / 16) ++ Nat.toDigits 16 (n % 16)

/-- Sixteen bytes with the version and variant of a random identifier set. -/
def uuid : Generator := fun _ _ => do
  let bytes := (← Draw.bytes 16).zipIdx.map fun (b, i) =>
    if i = 6 then b % 16 + 64 else if i = 8 then b % 64 + 128 else b
  let part (start size : Nat) : String :=
    .ofList (((bytes.drop start).take size).flatMap hexByte)
  return text ("-".intercalate [part 0 4, part 4 2, part 6 2, part 8 2, part 10 6])

/-! ## Numbers -/

/-- The ordered bounds: a single number is the upper one. -/
def bounds (args : List Json) (high : Binary64) : Binary64 × Binary64 :=
  let (a, b) := match args with
    | .obj fs :: _ =>
      (((Fields.get? fs "min").bind Json.double?).getD (.ofInt 0),
        ((Fields.get? fs "max").bind Json.double?).getD high)
    | v :: _ => (.ofInt 0, v.double?.getD high)
    | [] => (.ofInt 0, high)
  if a.atMost b then (a, b) else (b, a)

/-- The range of whole numbers between the bounds; between bounds that hold none it is the number
above them. -/
def range (args : List Json) : Int × Int :=
  let (low, high) := bounds args (.ofInt 99999)
  (low.ceil64, max high.floor64 low.ceil64)

def integer : Generator := fun args _ => do
  let (low, high) := range args
  return .value (.int (← Draw.between low high))

def fraction : Generator := fun args _ => do
  let (low, high) := bounds args (.ofInt 1)
  let low := low.toFloat
  let high := high.toFloat
  let places := match option? args "fractionDigits" with
    | some (.int n) => if n < 0 then 2 else min n.toNat 10
    | _ => 2
  let raw ← if low < high then Draw.double low high Draw.maxTries else pure low
  let scale := Decimal.power places
  return .value (.ofFloat ((raw * scale).round / scale))

def boolean : Generator := fun _ _ => return .value (.bool (← Draw.coin))

/-! ## Prose -/

def wordList : Nat → Draw (List String)
  | 0 => return []
  | n + 1 => do
    let w ← pick wordTable
    return w :: (← wordList n)

def words : Generator := fun args _ => do
  return text (" ".intercalate (← wordList ((count? args "count").getD 3)))

/-- Words with a capital in front and a full stop after them. -/
def sentenceText (n : Nat) : Draw String := do
  match (" ".intercalate (← wordList n)).toList with
  | c :: cs => return .ofList (c.toUpper :: cs ++ ['.'])
  | [] => return "."

/-- The length of a sentence that is not given: five to nine words. -/
def sentenceLength : Draw Nat := do return 5 + (← Draw.below64 5)

def sentence : Generator := fun args _ => do
  let n ← match count? args "wordCount" with
    | some n => pure n
    | none => sentenceLength
  return text (← sentenceText n)

def sentences : Nat → Draw (List String)
  | 0 => return []
  | n + 1 => do
    let s ← sentenceText (← sentenceLength)
    return s :: (← sentences n)

def paragraph : Generator := fun args _ => do
  return text (" ".intercalate (← sentences ((count? args "sentenceCount").getD 3)))

/-! ## Places -/

def streetAddress : Generator := fun _ _ => do
  let n ← Draw.belowSmall 2999
  let street ← pick streets
  return text s!"{street}, {n + 1}"

def zipCode : Generator := fun _ _ => do
  let head ← string digits 5
  let tail ← string digits 3
  return text (.ofList (head ++ '-' :: tail))

def phoneNumber : Generator := fun _ _ => do
  let area ← Draw.belowSmall 89
  let head ← string digits 4
  let tail ← string digits 4
  return text s!"({area + 11}) 9{String.ofList head}-{String.ofList tail}"

def companyName : Generator := fun _ _ => do
  let last ← pick lastNames
  let ending ← pick companySuffixes
  return text s!"{last} {ending}"

/-! ## Dates -/

/-- The widest span from now, a thousand years, in days. -/
def maxSpan : Float := 365000.0

/-- A moment up to some days before or after now, at least a millisecond away. -/
def awayFrom (now : Moment) (days : Float) (forward : Bool) : Draw Made := do
  let most := toInt64 (smaller days maxSpan * 86400000.0)
  let ms ← Draw.between 1 (max most 1)
  return .moment ((now.shift? (if forward then ms else -ms)).getD now)

private def daysArg (args : List Json) (name : String) : Float :=
  larger ((number? args name).getD 1.0) 0.0

def past : Generator := fun args now => awayFrom now (daysArg args "years" * 365.0) false
def future : Generator := fun args now => awayFrom now (daysArg args "years" * 365.0) true
def recent : Generator := fun args now => awayFrom now (daysArg args "days") false
def soon : Generator := fun args now => awayFrom now (daysArg args "days") true

def birthdate : Generator := fun _ now => do
  let years ← Draw.between 18 79
  let days ← Draw.between 0 364
  return .moment ((now.shift? (-(years * 365 + days) * Moment.perDay)).getD now)

/-- One item of a list, or null. -/
def arrayElement : Generator := fun args _ => do
  match args with
  | .arr items :: _ => return .value (← Draw.choose items .null)
  | _ => return .value .null

/-! ## The table -/

/-- All generators by path. -/
def table : List (String × Generator) := [
  ("person.firstName", picked firstNames),
  ("person.lastName", picked lastNames),
  ("person.fullName", fullName),
  ("person.jobTitle", picked jobTitles),
  ("person.sex", sex),
  ("internet.email", email),
  ("internet.userName", userName),
  ("internet.username", userName),
  ("internet.password", stringOf (letters ++ digits) 15),
  ("internet.url", webAddress),
  ("internet.domainName", domainName),
  ("internet.ipv4", ipv4),
  ("string.uuid", uuid),
  ("string.alpha", stringOf letters 1),
  ("string.numeric", stringOf digits 1),
  ("string.alphanumeric", stringOf (letters ++ digits) 1),
  ("number.int", integer),
  ("number.float", fraction),
  ("datatype.boolean", boolean),
  ("lorem.word", picked wordTable),
  ("lorem.words", words),
  ("lorem.sentence", sentence),
  ("lorem.paragraph", paragraph),
  ("location.city", picked cities),
  ("location.country", picked countries),
  ("location.streetAddress", streetAddress),
  ("location.zipCode", zipCode),
  ("phone.number", phoneNumber),
  ("company.name", companyName),
  ("date.past", past),
  ("date.future", future),
  ("date.recent", recent),
  ("date.soon", soon),
  ("date.birthdate", birthdate),
  ("helpers.arrayElement", arrayElement)]

def find? (path : String) : Option Generator := table.lookup path

/-- All paths, sorted. -/
def paths : List String := (table.map (·.1)).mergeSort (· ≤ ·)

end Generator
end PageSpec.Dynamic
