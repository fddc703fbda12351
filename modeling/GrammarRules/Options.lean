import GrammarRules.Data.Number
import GrammarRules.Environment
import GrammarRules.Issue

/-!
# Options of a grammar

The options are the notation of the grammar and three flags. They are read from given fields:
fields that are not known are ignored, those that are missing take their defaults, and all that is
wrong is reported in the order mode, `warn_on_overwrite`, `validate_refs`, `debug`. A flag may also
be given as a number or in words.
-/

namespace GrammarRules

structure Options where
  mode : Mode := .gbnf
  /-- Warn when a rule or a cardinality is replaced by another one. -/
  warn : Bool := true
  /-- Refuse to build a grammar that refers to a rule it does not define. -/
  validate : Bool := true
  /-- Print every grammar that is built. -/
  debug : Bool := false
  deriving DecidableEq, Repr

namespace Options

/-- The flag that a word stands for, in any letter case. -/
def flagOfWord? (word : String) : Option Bool :=
  let word := word.map Char.toLower
  if word ∈ ["0", "off", "f", "false", "n", "no"] then some false
  else if word ∈ ["1", "on", "t", "true", "y", "yes"] then some true
  else none

def flagOfData : Data → Checked Bool
  | .flag b => .ok b
  | .text word =>
      match flagOfWord? word with
      | some b => .ok b
      | none => Checked.fail .unreadableFlag
  | d =>
      match d.whole? with
      | some 0 => .ok false
      | some 1 => .ok true
      | some _ => Checked.fail .unreadableFlag
      | none => Checked.fail .notFlag

def modeOfData : Data → Checked Mode
  | .text tag =>
      match Mode.ofTag? tag with
      | some mode => .ok mode
      | none => Checked.fail .notChoice
  | _ => Checked.fail .notChoice

/-- The value of a field read by `check`, or `default` where the field is missing. -/
def field {α : Type} (name : String) (check : Data → Checked α) (default : α)
    (fields : Data.Fields) : Checked α :=
  match fields.lookup name with
  | none => .ok default
  | some d => (check d).under name

def warnField : String := "warn_on_overwrite"

def ofFields (fields : Data.Fields) : Checked Options :=
  Checked.map₂ (fun (mode, warn) (validate, debug) => ⟨mode, warn, validate, debug⟩)
    (Checked.map₂ Prod.mk (field "mode" modeOfData .gbnf fields)
      (field warnField flagOfData true fields))
    (Checked.map₂ Prod.mk (field "validate_refs" flagOfData true fields)
      (field "debug" flagOfData false fields))

/-- What the fields tell about warnings, where null is nothing. -/
def toldWarn (fields : Data.Fields) : Option Data :=
  match fields.lookup warnField with
  | none | some .null => none
  | some d => some d

/-- Options whose warnings follow the environment unless the fields tell otherwise. -/
def ofEnvironment (given? : Option String) (fields : Data.Fields) :
    Checked Options × List Event :=
  let (warn, events) := Environment.shouldWarn given? (toldWarn fields)
  (ofFields ((warnField, warn) :: fields), events)

end Options
end GrammarRules
