import GrammarRules.Name
import GrammarRules.Part
import GrammarRules.Text.Quoted
import GrammarRules.Text.Slashes

/-!
# Written rules

A sequence is written with blanks between its parts and takes parentheses only for the sake of its
cardinality; a choice always stands in parentheses. A reference is written as the token of its
name, and a range as its pattern, which Lark EBNF puts between slashes. The glyph of a cardinality
follows the node.
-/

namespace GrammarRules.Part

def glyphChars (cardinality : Option Cardinality) : List Char :=
  (cardinality.map Cardinality.glyph).toList

def patternChars (mode : Mode) (pattern : String) : List Char :=
  match mode with
  | .gbnf => pattern.toList
  | .ebnf => '/' :: (Text.escapeSlashesFrom false pattern.toList ++ ['/'])

mutual

def chars (mode : Mode) : Part → List Char
  | .literal text => Text.quotedChars text.toList
  | .sequence parts none => [' '].intercalate (charsOfAll mode parts)
  | .sequence parts (some c) =>
      '(' :: ([' '].intercalate (charsOfAll mode parts) ++ [')', c.glyph])
  | .oneOf options cardinality =>
      '(' :: ([' ', '|', ' '].intercalate (charsOfAll mode options) ++
        ')' :: glyphChars cardinality)
  | .ref name cardinality => (Name.token mode name).toList ++ glyphChars cardinality
  | .range pattern cardinality => patternChars mode pattern ++ glyphChars cardinality

def charsOfAll (mode : Mode) : List Part → List (List Char)
  | [] => []
  | p :: ps => chars mode p :: charsOfAll mode ps

end

theorem charsOfAll_eq_map (mode : Mode) (parts : List Part) :
    charsOfAll mode parts = parts.map (chars mode) := by
  induction parts with
  | nil => rfl
  | cons p ps ih => simp [charsOfAll, ih]

/-- The expression a part is written as. -/
def render (mode : Mode) (part : Part) : String := String.ofList (chars mode part)

end GrammarRules.Part
