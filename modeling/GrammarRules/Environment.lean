import GrammarRules.Data
import GrammarRules.Event
import GrammarRules.Text.Blank
import GrammarRules.Text.Lower

/-!
# The environment

A grammar may be put together in development, under test or in production. The environment is read
from the value of a variable, without regard to letter case or to blanks around it; a value that
is not known counts as development and is worth a warning.
-/

namespace GrammarRules

inductive Environment where
  | development
  | test
  | production
  deriving DecidableEq, Repr

namespace Environment

def name : Environment → String
  | .development => "development"
  | .test => "test"
  | .production => "production"

def ofName? (name : String) : Option Environment :=
  if name = "production" ∨ name = "prod" then some .production
  else if name = "test" ∨ name = "testing" then some .test
  else if name = "development" ∨ name = "dev" ∨ name = "" then some .development
  else none

/-- The environment given by the variable, where `none` stands for a variable that is not set. -/
def read (given? : Option String) : Environment × List Event :=
  let value := Text.trim (Text.lower (given?.getD ""))
  match ofName? value with
  | some environment => (environment, [])
  | none => (.development, [.unknownEnvironment value])

def isProduction (given? : Option String) : Bool × List Event :=
  let (environment, events) := read given?
  (environment == .production, events)

/-- Whether replacing a rule is worth a warning: what is told, unchecked, or else whether the
environment is not production. The variable is read only if nothing is told. -/
def shouldWarn (given? : Option String) (told : Option Data) : Data × List Event :=
  match told with
  | some answer => (answer, [])
  | none =>
      let (inProduction, events) := isProduction given?
      (.flag !inProduction, events)

end Environment
end GrammarRules
