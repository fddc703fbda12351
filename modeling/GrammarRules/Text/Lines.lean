/-!
# Lines of a text

A line ends at any of the line and page breaks of Unicode, a carriage return with a line feed
being one break; an empty last line does not count. `unifyBreaks` is the reading of a file in which
only the carriage return, alone or with a line feed, stands for a line feed.
-/

namespace GrammarRules.Text

def isLineBreak (c : Char) : Bool :=
  c ∈ ['\n', '\r', '\x0b', '\x0c', '\x1c', '\x1d', '\x1e', '\u0085', '\u2028', '\u2029']

/-- The lines with one more character at the start of the first. -/
def startLine (c : Char) : List (List Char) → List (List Char)
  | [] => [[c]]
  | line :: rest => (c :: line) :: rest

def lines : List Char → List (List Char)
  | [] => []
  | '\r' :: '\n' :: cs => [] :: lines cs
  | c :: cs => if isLineBreak c then [] :: lines cs else startLine c (lines cs)

def unifyBreaks : List Char → List Char
  | [] => []
  | '\r' :: '\n' :: cs => '\n' :: unifyBreaks cs
  | c :: cs => (if c = '\r' then '\n' else c) :: unifyBreaks cs

end GrammarRules.Text
