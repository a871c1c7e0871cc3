import PageSpec.Failure
/-!
Locales: the month names that date formats write.
-/
namespace PageSpec.Dynamic

inductive Locale where
  | ptBr
  | enUs
  deriving DecidableEq, Repr, Inhabited

namespace Locale

def tag : Locale → String
  | .ptBr => "pt-BR"
  | .enUs => "en-US"

def longNames : Locale → List String
  | .ptBr => ["janeiro", "fevereiro", "março", "abril", "maio", "junho", "julho", "agosto",
      "setembro", "outubro", "novembro", "dezembro"]
  | .enUs => ["January", "February", "March", "April", "May", "June", "July", "August",
      "September", "October", "November", "December"]

def shortNames : Locale → List String
  | .ptBr => ["jan.", "fev.", "mar.", "abr.", "mai.", "jun.", "jul.", "ago.", "set.", "out.",
      "nov.", "dez."]
  | .enUs => ["Jan", "Feb", "Mar", "Apr", "May", "Jun", "Jul", "Aug", "Sep", "Oct", "Nov", "Dec"]

/-- The name of a month counted from 0; beyond the year there is none. -/
def longName (l : Locale) (month0 : Nat) : String := l.longNames.getD month0 ""
def shortName (l : Locale) (month0 : Nat) : String := l.shortNames.getD month0 ""

/-- A locale from its tag or language, in any letter case, with a hyphen or an underscore. -/
def parse (s : String) : Except Failure Locale :=
  let t := (Text.asciiLower s).map fun c => if c = '_' then '-' else c
  if t = "pt-br" ∨ t = "pt" then .ok .ptBr
  else if t = "en-us" ∨ t = "en" then .ok .enUs
  else .error (.mistake (.locale t))

end Locale
end PageSpec.Dynamic
