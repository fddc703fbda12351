import GrammarRules.Text.Blank
import GrammarRules.Text.Width

/-!
# Wrapping

A line that takes more columns than there are is broken in front of words. A word that is wider
than a whole line begins a line of its own and is cut where the columns end, but not between a
character and those that stand in its columns. Blanks that stick out at the end of a line are left
out, and a wide character of which only half would be left becomes a blank.
-/

namespace GrammarRules.Text

def trimEnd (cs : List Char) : List Char := (cs.reverse.dropWhile isBlank).reverse

/-- The blanks that a line starts with, and its words, each with the blanks behind it. -/
def cutWords : List Char → List Char × List (List Char)
  | [] => ([], [])
  | c :: cs =>
      match cutWords cs with
      | (blanks, words) =>
          if isBlank c then (c :: blanks, words)
          else
            match blanks, words with
            | [], word :: words => ([], (c :: word) :: words)
            | blanks, words => ([], (c :: blanks) :: words)

/-- The words of a line with the blanks around them, if it has words. -/
def wordsOf (line : List Char) : List (List Char) :=
  match cutWords line with
  | (_, []) => []
  | (blanks, word :: words) => (blanks ++ word) :: words

def clustersFrom (cluster : List Char) : List Char → List (List Char)
  | [] => [cluster]
  | '\u200d' :: c :: cs => clustersFrom (cluster ++ ['\u200d', c]) cs
  | c :: cs =>
      if width c = 0 then clustersFrom (cluster ++ [c]) cs else cluster :: clustersFrom [c] cs

/-- The characters of a text, each with those behind it that stand in its columns. -/
def clusters : List Char → List (List Char)
  | [] => []
  | c :: cs => clustersFrom [c] cs

/-- The full lines that clusters make which come after `line`, and the line that is left over. -/
def fold (limit : Nat) (line : List Char) : List (List Char) → List (List Char) × List Char
  | [] => ([], line)
  | cluster :: rest =>
      if columns line + columns cluster ≤ limit then fold limit (line ++ cluster) rest
      else
        match fold limit cluster rest with
        | (lines, last) => (line :: lines, last)

/-- The lines that words make which come after `line`, of which `used` columns are taken. -/
def place (limit : Nat) (line : List Char) (used : Nat) : List (List Char) → List (List Char)
  | [] => [line]
  | word :: words =>
      if used + columns (trimEnd word) ≤ limit then
        place limit (line ++ word) (used + columns word) words
      else if columns (trimEnd word) ≤ limit then
        line :: place limit word (columns word) words
      else
        match fold limit [] (clusters word) with
        | (lines, last) =>
            (line :: lines).dropWhile List.isEmpty ++ place limit last (columns last) words

def breakLine (limit : Nat) (line : List Char) : List (List Char) :=
  match wordsOf line with
  | [] => [line]
  | words => place limit [] 0 words

/-- The line without the blanks at its end that come after `limit` characters. -/
def trimFrom (limit : Nat) (line : List Char) : List Char :=
  line.take (max limit (trimEnd line).length)

/-- As much of a line as takes `limit` columns. -/
def crop (limit : Nat) (line : List Char) : List Char :=
  if columns line ≤ limit then line
  else
    let kept := (fold limit [] (clusters line)).1.headD []
    kept ++ if columns kept < limit then [' '] else []

def wrapLine (limit : Nat) (line : List Char) : List (List Char) :=
  (breakLine limit line).map fun piece => crop limit (trimFrom limit piece)

/-- The lines of a text, each wrapped to `limit` columns. -/
def wrap (limit : Nat) (cs : List Char) : List Char :=
  ['\n'].intercalate ((cs.splitOn '\n').flatMap (wrapLine limit))

end GrammarRules.Text
