/-!
# Rule parts

A rule is a tree over literals, references and character ranges, put together by sequences and
choices. Every node but a literal may carry one cardinality. `Part.refs` lists the references of a
tree from left to right, as often as they occur.
-/

namespace GrammarRules

/-- How often a node may occur, where once is not meant. -/
inductive Cardinality where
  | zeroOrMore
  | oneOrMore
  | optional
  deriving DecidableEq, Repr

namespace Cardinality

def glyph : Cardinality → Char
  | .zeroOrMore => '*'
  | .oneOrMore => '+'
  | .optional => '?'

def ofGlyph? (c : Char) : Option Cardinality :=
  if c = '*' then some .zeroOrMore
  else if c = '+' then some .oneOrMore
  else if c = '?' then some .optional
  else none

def text (c : Cardinality) : String := String.singleton c.glyph

def ofText? (text : String) : Option Cardinality :=
  match text.toList with
  | [c] => ofGlyph? c
  | _ => none

theorem ofGlyph?_glyph (c : Cardinality) : ofGlyph? c.glyph = some c := by
  cases c <;> decide

end Cardinality

inductive Part where
  | literal (text : String)
  | sequence (parts : List Part) (cardinality : Option Cardinality)
  | oneOf (options : List Part) (cardinality : Option Cardinality)
  | ref (name : String) (cardinality : Option Cardinality)
  | range (pattern : String) (cardinality : Option Cardinality)
  deriving Repr

/-- One occurrence of a reference. -/
structure Ref where
  name : String
  cardinality : Option Cardinality
  deriving DecidableEq, Repr

namespace Part

mutual

def decEq : (a b : Part) → Decidable (a = b)
  | .literal s, .literal t => decidable_of_iff (s = t) (by simp)
  | .sequence ps c, .sequence qs d =>
      have := decEqList ps qs
      decidable_of_iff (ps = qs ∧ c = d) (by simp)
  | .oneOf ps c, .oneOf qs d =>
      have := decEqList ps qs
      decidable_of_iff (ps = qs ∧ c = d) (by simp)
  | .ref s c, .ref t d => decidable_of_iff (s = t ∧ c = d) (by simp)
  | .range s c, .range t d => decidable_of_iff (s = t ∧ c = d) (by simp)
  | .literal _, .sequence .. | .literal _, .oneOf .. | .literal _, .ref .. | .literal _, .range ..
  | .sequence .., .literal _ | .sequence .., .oneOf .. | .sequence .., .ref ..
  | .sequence .., .range .. | .oneOf .., .literal _ | .oneOf .., .sequence .. | .oneOf .., .ref ..
  | .oneOf .., .range .. | .ref .., .literal _ | .ref .., .sequence .. | .ref .., .oneOf ..
  | .ref .., .range .. | .range .., .literal _ | .range .., .sequence .. | .range .., .oneOf ..
  | .range .., .ref .. => isFalse nofun

def decEqList : (as bs : List Part) → Decidable (as = bs)
  | [], [] => isTrue rfl
  | a :: as, b :: bs =>
      have := decEq a b
      have := decEqList as bs
      decidable_of_iff (a = b ∧ as = bs) (by simp)
  | [], _ :: _ | _ :: _, [] => isFalse nofun

end

instance : DecidableEq Part := decEq

mutual

/-- The references of a part, in the order in which they are written. -/
def refs : Part → List Ref
  | .literal _ => []
  | .sequence parts _ => refsOfAll parts
  | .oneOf options _ => refsOfAll options
  | .ref name cardinality => [⟨name, cardinality⟩]
  | .range _ _ => []

def refsOfAll : List Part → List Ref
  | [] => []
  | p :: ps => p.refs ++ refsOfAll ps

end

theorem refsOfAll_eq_flatMap (parts : List Part) : refsOfAll parts = parts.flatMap refs := by
  induction parts with
  | nil => rfl
  | cons p ps ih => simp [refsOfAll, ih]

end Part
end GrammarRules
