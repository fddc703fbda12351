import GrammarRules.Event

/-!
# Builders

A builder stands for the making of one rule. It knows the name of the rule being defined, for
messages, and whether a cardinality that replaces another one is worth a warning.
-/

namespace GrammarRules

structure Builder where
  warn : Bool := true
  rule : Option String := none
  deriving DecidableEq, Repr

/-- The warning due when cardinality `new` is put on a node that has `old`. -/
def Builder.replacing (b : Builder) (old : Option Cardinality) (new : Cardinality) : List Event :=
  match old with
  | some c => if b.warn && c ≠ new then [.cardinalityReplaced c new b.rule] else []
  | none => []

end GrammarRules
