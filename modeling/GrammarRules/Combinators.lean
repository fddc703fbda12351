import GrammarRules.Builder
import GrammarRules.Range
import GrammarRules.Value

/-!
# Combinators

The combinators make the values of rules: sequences, choices, references, ranges, and values with
a cardinality. They never look at the rules of a grammar.
-/

namespace GrammarRules.Builder

variable (b : Builder)

def sequence (parts : List Value) : Except Error Value :=
  match (Value.asParts 0 parts).under "parts" with
  | .ok ps => .ok (.part (.sequence ps none))
  | .error issues => .error (.invalid issues)

def oneOf (options : List Value) : Except Error Value :=
  match (Value.asParts 0 options).under "options" with
  | .ok ps => .ok (.part (.oneOf ps none))
  | .error issues => .error (.invalid issues)

def ref (name : String) : Except Error Value :=
  if Name.isBlank name then .error (.grammar (.blankName name b.rule))
  else .ok (.part (.ref name none))

def range (text : String) : Except Error Value :=
  match Range.ofText? text with
  | some p => .ok (.part p)
  | none => .error (.grammar (.malformedRange text b.rule))

/-- The value with cardinality `c` in place of its own, and the warning due. A value that is no
node has no cardinality to look at when warnings are on, and none to change when they are off. -/
def repeated (c : Cardinality) : Value → Except Error (Value × List Event)
  | .part (.sequence parts old) => .ok (.part (.sequence parts (some c)), b.replacing old c)
  | .part (.oneOf options old) => .ok (.part (.oneOf options (some c)), b.replacing old c)
  | .part (.ref name old) => .ok (.part (.ref name (some c)), b.replacing old c)
  | .part (.range pattern old) => .ok (.part (.range pattern (some c)), b.replacing old c)
  | .bare old => .ok (.bare (some c), b.replacing old c)
  | v => .error (.lacking v.kind (if b.warn then "cardinality" else "model_copy"))

variable {b}

theorem exists_eq_replacing {c : Cardinality} {value : Value} {result : Value × List Event}
    (h : b.repeated c value = .ok result) : ∃ old, result.2 = b.replacing old c := by
  simp only [repeated] at h
  split at h <;> first | (cases h; exact ⟨_, rfl⟩) | cases h

end GrammarRules.Builder
