import GrammarRules.Mode
import GrammarRules.Part

/-!
# Events

What happens while a grammar is put together is kept as a list of events. Three of them warn: a
cardinality that replaces another one, a rule that replaces another one, and an environment that
is not known.
-/

namespace GrammarRules

inductive Event where
  | cardinalityReplaced (old new : Cardinality) (rule : Option String)
  | ruleReplaced (name : String)
  | ruleDefined (name : String)
  | rootReplaced
  | built (mode : Mode) (rules : Nat)
  | unknownEnvironment (value : String)
  deriving DecidableEq, Repr

namespace Event

inductive Level where
  | debug
  | warning
  deriving DecidableEq, Repr

def Level.label : Level → String
  | .debug => "DEBUG"
  | .warning => "WARNING"

def level : Event → Level
  | .cardinalityReplaced .. | .ruleReplaced _ | .unknownEnvironment _ => .warning
  | .ruleDefined _ | .rootReplaced | .built .. => .debug

/-- The part of the library that an event comes from. -/
def source : Event → String
  | .cardinalityReplaced .. => "builder"
  | .ruleReplaced _ | .ruleDefined _ | .rootReplaced | .built .. => "grammar"
  | .unknownEnvironment _ => "environment"

def message : Event → String
  | .cardinalityReplaced old new rule =>
      "Rule had cardinality '" ++ old.text ++ "' which was overwritten by '" ++ new.text ++ "'" ++
        (match rule with
          | none => ""
          | some name => if name = "" then "" else " in rule '" ++ name ++ "'")
  | .ruleReplaced name => "Rule '" ++ name ++ "' was already defined, but is being overwritten"
  | .ruleDefined name => "Defined rule '" ++ name ++ "'"
  | .rootReplaced => "Replacing root rule"
  | .built mode rules =>
      "Built " ++ mode.tag ++ " grammar with " ++ toString rules ++ " rules"
  | .unknownEnvironment value =>
      "Unknown GRAMMAR_ENV value '" ++ value ++
        "'. Valid values: development, test, production. Defaulting to development."

end Event
end GrammarRules
