import PageSpec.Dynamic.Call
import PageSpec.Dynamic.DateCall
import PageSpec.Dynamic.Generator
/-!
Dynamic texts. A text that starts with a date call has its date calls written out, a text that is a
data call becomes what its generator makes, and any other text stays as it is. The clock is read for
every text with calls, unless it stands still. Random words grow out of a seed, or else out of a key
from outside.
-/
namespace PageSpec.Dynamic

/-- Settings for dynamic texts. -/
structure Options where
  locale : Locale
  /-- Write dates in universal time. -/
  utc : Bool
  /-- What the random words grow out of, if they are not to differ from run to run. -/
  seed : Option UInt64
  /-- The reading at which the clock stands still, if it does. -/
  now : Option ZonedMoment
  deriving Repr, Inhabited

/-- The clock and the style of written dates, at a reading of the clock. -/
def Options.dates (o : Options) (now : ZonedMoment) : DateSettings :=
  { now := if o.utc then now.utc else now.wall, offset := now.offset, locale := o.locale, utc := o.utc }

/-! ## What dynamic texts draw on -/

/-- What comes from outside a run, in the order in which it is taken. -/
structure Supply where
  /-- The readings of the clock. -/
  clock : Nat → ZonedMoment
  /-- The keys of random words without a seed. -/
  keys : Nat → Vector UInt32 8
  deriving Inhabited

namespace Supply

/-- The supply after a reading of the clock. -/
def afterReading (s : Supply) : Supply := { s with clock := fun n => s.clock (n + 1) }

/-- The supply after a key. -/
def afterKey (s : Supply) : Supply := { s with keys := fun n => s.keys (n + 1) }

end Supply

/-- The random words, and what is left of the supply. -/
structure Source where
  dice : Dice
  supply : Supply

instance : Inhabited Source := ⟨⟨.ofSeed 0, default⟩⟩

/-- A computation that draws on a source. -/
abbrev Drawing (α : Type) := ExceptT Failure (StateM Source) α

/-- A computation that draws random words only. -/
def Drawing.ofRoll {α : Type} (a : Roll α) : Drawing α := fun s =>
  let (x, d) := a.run s.dice
  (x, { s with dice := d })

namespace Options

/-- A new source. Its words grow out of the seed, and out of a key if there is none. -/
def begin (o : Options) (supply : Supply) : Source :=
  match o.seed with
  | some seed => ⟨.ofSeed seed, supply⟩
  | none => ⟨.ofKey (supply.keys 0), supply.afterKey⟩

/-- Reads the clock. -/
def reading (o : Options) : Drawing ZonedMoment := fun s =>
  match o.now with
  | some now => (.ok now, s)
  | none => (.ok (s.supply.clock 0), { s with supply := s.supply.afterReading })

end Options

/-- The text that a dynamic text stands for. -/
def resolve (o : Options) (s : String) : Drawing String := do
  let trimmed := Text.trim s
  if isDateCall trimmed then
    let now ← o.reading
    return .ofList (← Drawing.ofRoll (resolveCalls (o.dates now) trimmed.toList))
  match DataCall.parse trimmed with
  | .error e => throw e
  | .ok none => return s
  | .ok (some call) =>
    match Generator.find? call.key with
    | none => throw (.unknownGenerator s!"{call.fullPath}()")
    | some generate =>
      let now ← o.reading
      let made ← Drawing.ofRoll (liftM (generate call.args now.utc))
      return made.text

end PageSpec.Dynamic
