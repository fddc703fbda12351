import GrammarRules.Text.Casing

/-!
# Lower case of a text

Each character goes to its lower-case partner, with two exceptions: the dotted capital I becomes an
`i` and a combining dot, and a capital sigma becomes a final sigma when the nearest character
before it that counts has a case and the nearest one after it has not.
-/

namespace GrammarRules.Text

/-- Whether the first character that counts for case has one. -/
def startsCased (cs : List Char) : Bool :=
  match cs.dropWhile caseIgnorableRanges.contains with
  | [] => false
  | c :: _ => casedRanges.contains c

/-- `before` holds the characters in front of the text, nearest first. -/
def lowerFrom (before : List Char) : List Char → List Char
  | [] => []
  | c :: cs =>
      let here :=
        if c = '\u0130' then ['i', '\u0307']
        else if c = '\u03a3' && startsCased before && !startsCased cs then ['\u03c2']
        else [lowerChar c]
      here ++ lowerFrom (c :: before) cs

def lower (text : String) : String := String.ofList (lowerFrom [] text.toList)

end GrammarRules.Text
