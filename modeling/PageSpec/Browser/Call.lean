import PageSpec.Browser.Basic
/-!
Records of what was asked of a session, and how each is written down.
-/
namespace PageSpec

/-- One recorded call. -/
inductive Call where
  | started
  | navigate (url : String)
  | click (at_ : Locator) (force : Bool)
  | hover (at_ : Locator)
  | fill (at_ : Locator) (text : String)
  | typeText (at_ : Locator) (text : String)
  | press (at_ : Option Locator) (chord : String)
  | setChecked (at_ : Locator) (checked : Bool)
  | select (at_ : Locator) (choice : Choice)
  | attach (at_ : Locator) (files : Nat)
  | scrollIntoView (at_ : Locator)
  | scrollPage (goal : PageScroll)
  | screenshot (at_ : Option Locator) (fullPage : Bool)
  | await (matcher : Network.Matcher)
  | route (source : String)
  | unroute (source : String)
  | closed
  deriving DecidableEq, Repr

private def bracketed (items : List String) : String := "[" ++ ", ".intercalate items ++ "]"

def Choice.describe : Choice → String
  | .values vs => s!"Values({bracketed (vs.map Text.quote)})"
  | .labels ls => s!"Labels({bracketed (ls.map Text.quote)})"
  | .indexes is => s!"Indexes({bracketed (is.map toString)})"

private def coordinate : Option Binary64 → String
  | some x => s!"Some({Decimal.Layout.record.write x})"
  | none => "None"

def PageScroll.describe : PageScroll → String
  | .top => "top"
  | .bottom => "bottom"
  | .point x y behavior => s!"x={coordinate x} y={coordinate y} behavior={behavior.word}"

def Call.describe : Call → String
  | .started => "open"
  | .navigate url => s!"navigate:{url}"
  | .click l force => (if force then "click(force):" else "click:") ++ l.describe
  | .hover l => s!"hover:{l.describe}"
  | .fill l text => s!"fill:{l.describe}={text}"
  | .typeText l text => s!"type:{l.describe}={text}"
  | .press (some l) chord => s!"press:{l.describe}={chord}"
  | .press none chord => s!"press:page={chord}"
  | .setChecked l checked => (if checked then "check:" else "uncheck:") ++ l.describe
  | .select l choice => s!"select:{l.describe}={choice.describe}"
  | .attach l n => s!"upload:{l.describe}={n}"
  | .scrollIntoView l => s!"scrollIntoView:{l.describe}"
  | .scrollPage goal => s!"scroll:{goal.describe}"
  | .screenshot (some l) _ => s!"screenshot:{l.describe}"
  | .screenshot none fullPage => s!"screenshot:page fullPage={fullPage}"
  | .await m => s!"waitForResponse:{m.describe}"
  | .route source => s!"route:{source}"
  | .unroute source => s!"unroute:{source}"
  | .closed => "close"

end PageSpec
