import GrammarRules.Issue
import GrammarRules.Name
import GrammarRules.Text.Shown

/-!
# Errors

`GrammarError` is what the combinators and the registry report: a fault and, where a rule is to
blame, its name and the notation it is named in. `Error` adds what goes wrong with values that are
no rules at all. The wording of each stands in one place, `Fault.message` and `Error.message`.
-/

namespace GrammarRules

/-- The part of the library that an error comes from. -/
inductive Family where
  | general
  | input
  | registry
  deriving DecidableEq, Repr

inductive Fault where
  | malformedRange (pattern : String)
  | blankName (name : String)
  | reservedName
  | finalized
  | noRoot
  | undefinedRefs (targets : List String)
  | stated (family : Family) (message : String)
  deriving DecidableEq, Repr

namespace Fault

def family : Fault → Family
  | .malformedRange _ | .blankName _ => .input
  | .reservedName | .finalized | .noRoot | .undefinedRefs _ => .registry
  | .stated family _ => family

def message : Fault → String
  | .malformedRange pattern =>
      "malformed range literal: expected a bracketed character class such as [0-9], " ++
        "optionally followed by ?, * or +, received: " ++ pattern
  | .blankName name =>
      "rule name " ++ Text.shown name ++ " has no ASCII letters or digits and cannot be emitted"
  | .reservedName => "Cannot define a rule named 'root', use root() instead"
  | .finalized => "Cannot define rules after the root rule has been set"
  | .noRoot => "No root rule defined"
  | .undefinedRefs targets => "Reference to undefined rule(s): " ++ ", ".intercalate targets
  | .stated _ message => message

end Fault

/-- The rule an error blames, named as in the notation `mode`. -/
structure RuleContext where
  rule : String
  mode : Mode := .gbnf
  deriving DecidableEq, Repr

def RuleContext.text (context : RuleContext) : String :=
  "in rule " ++ Name.normalize context.mode context.rule

structure GrammarError where
  fault : Fault
  context : Option RuleContext := none
  deriving DecidableEq, Repr

namespace GrammarError

def message (e : GrammarError) : String :=
  match e.context with
  | none => e.fault.message
  | some context => context.text ++ ": " ++ e.fault.message

/-- A text that is no range literal, met while `rule` was being defined. -/
def malformedRange (pattern : String) (rule : Option String) : GrammarError :=
  { fault := .malformedRange pattern, context := rule.map fun r => { rule := r } }

/-- A name of which nothing can be written, met while `rule` was being defined. -/
def blankName (name : String) (rule : Option String) : GrammarError :=
  { fault := .blankName name, context := rule.map fun r => { rule := r } }

end GrammarError

inductive Error where
  | grammar (e : GrammarError)
  | invalid (issues : List Issue)
  | unrenderable (kind : String)
  | kindless
  | lacking (kind field : String)
  | unknownMode (tag : String)
  | unsaved (key : String)
  | unhashable (kind : String)
  /-- Deferred expressions that have been kept ask for one another without end. -/
  | endless
  deriving DecidableEq, Repr

def Error.message : Error → String
  | .grammar e => e.message
  | .invalid issues => ", ".intercalate (issues.map fun i => i.defect.code)
  | .unrenderable kind => "Cannot render object of type " ++ kind
  | .kindless => "Unknown rule kind: RuleNode"
  | .lacking kind field =>
      "'" ++ kind ++ "' object has no attribute '" ++ field ++ "'"
  | .unknownMode tag => Text.shown tag ++ " is not a valid OutputMode"
  | .unsaved key => Text.shown key
  | .unhashable kind => "unhashable type: '" ++ kind ++ "'"
  | .endless => "maximum recursion depth exceeded"

end GrammarRules
