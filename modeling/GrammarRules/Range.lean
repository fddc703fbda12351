import GrammarRules.Part

/-!
# Range literals

A range literal is a bracketed character class, from the first bracket to the last, which one
glyph may follow. `Range.split?` takes the glyph off; a text of any other shape is no range
literal.
-/

namespace GrammarRules.Range

/-- The class and the cardinality of a range literal. -/
def split? (cs : List Char) : Option (List Char × Option Cardinality) :=
  match cs, cs.reverse with
  | '[' :: _, ']' :: _ => some (cs, none)
  | '[' :: _, c :: ']' :: _ => (Cardinality.ofGlyph? c).map fun g => (cs.dropLast, some g)
  | _, _ => none

def ofText? (text : String) : Option Part :=
  (split? text.toList).map fun (pattern, cardinality) =>
    .range (String.ofList pattern) cardinality

end GrammarRules.Range
