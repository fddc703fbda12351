import GrammarRules.Error
import GrammarRules.Expr
import GrammarRules.Part.OfData
import GrammarRules.Part.Render

/-!
# Values of rules

What is supplied as a rule need not be one: besides parts there are nodes without a kind, plain
data, and deferred expressions, which nobody has asked for yet. A value is kept as it is given; only
writing it, collecting its references or setting its cardinality tells whether it is a rule.
-/

namespace GrammarRules

inductive Value where
  | part (p : Part)
  | bare (cardinality : Option Cardinality)
  | data (d : Data)
  | deferred (body : Expr)

namespace Value

/-- Plain text is a literal. -/
def ofData : Data → Value
  | .text s => .part (.literal s)
  | d => .data d

/-- The name messages use for the kind of a value that is no node; among parts only literals are
none. -/
def kind : Value → String
  | .part _ => "str"
  | .bare _ => "RuleNode"
  | .data d => d.kind
  | .deferred _ => "function"

def render (mode : Mode) : Value → Except Error String
  | .part p => .ok (p.render mode)
  | .bare _ => .error .kindless
  | v => .error (.unrenderable v.kind)

def refs : Value → Except Error (List Ref)
  | .part p => .ok p.refs
  | v => .error (.lacking v.kind "options")

def toData : Value → Data
  | .part p => p.toData
  | .bare c => .record [("cardinality", Part.cardinalityData c)]
  | .data d => d
  | .deferred _ => .null

/-- The part that a value stands for inside a sequence or a choice. -/
def asPart : Value → Checked Part
  | .part p => .ok p
  | .bare _ => Part.literalOr .null (Checked.fail .kindMissing)
  | .data d => Part.ofData d
  | .deferred _ => Part.literalOr .null (Checked.fail .notRule)

/-- The values as parts; `place` is the place of the first one. -/
def asParts (place : Nat) : List Value → Checked (List Part)
  | [] => .ok []
  | v :: vs => Checked.map₂ List.cons (v.asPart.under (toString place)) (asParts (place + 1) vs)

end Value
end GrammarRules
