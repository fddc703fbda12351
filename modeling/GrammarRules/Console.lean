import GrammarRules.Highlight
import GrammarRules.Text.Wrap

/-!
# The console

A text is printed without the control characters that would move the cursor, with blanks in place
of its tabs, and with a line feed after it. A tab stands for at least one blank and reaches up to a
multiple of eight columns. A grammar is printed under a title. The console wraps what is printed to
its columns; one without columns shows nothing.
-/

namespace GrammarRules.Console

/-- The text between two tabs of a line, filled up with blanks. As it starts at a multiple of eight
columns, only its own columns count. -/
def fillUp (piece : List Char) : List Char :=
  piece ++ ' ' :: List.replicate ((8 - Text.columns (piece ++ [' ']) % 8) % 8) ' '

/-- The pieces of a line, all but the last filled up. -/
def joinPieces : List (List Char) → List Char
  | [] => []
  | [piece] => piece
  | piece :: pieces => fillUp piece ++ joinPieces pieces

def expandLine (line : List Char) : List Char := joinPieces (line.splitOn '\t')

def expandTabs (cs : List Char) : List Char :=
  ['\n'].intercalate ((cs.splitOn '\n').map expandLine)

def printedChars (cs : List Char) : List Char := expandTabs (Styled.visible cs) ++ ['\n']

def print (text : String) : String := String.ofList (printedChars text.toList)

def printStyled (text : Styled) : String := String.ofList (printedChars text.chars)

def printGrammar (mode : Mode) (grammar : String) : String :=
  print "[Grammar] Grammar Output:" ++ printStyled (Highlight.text mode grammar)

def printError (message : String) : String := print ("Error: " ++ message)

/-- What a console with that many columns makes of a printed text. -/
def wrapped (columns : Nat) (text : String) : String :=
  if columns = 0 then "" else String.ofList (Text.wrap columns text.toList)

/-- The columns of a console where there is no terminal. -/
def usualColumns : Nat := 80

/-- So many columns that hardly any text is wrapped. -/
def ampleColumns : Nat := 100000

/-- Whether `c` ends a terminal control sequence. -/
def endsSequence (c : Char) : Bool := c.isAlpha

/-- What follows the control sequence that `cs` goes on with after its bracket, if there is one. -/
def afterSequence? : List Char → Option (List Char)
  | [] => none
  | c :: cs =>
      if c.isDigit || c = ';' || c = '?' then afterSequence? cs
      else if endsSequence c then some cs
      else none

theorem length_of_afterSequence? {cs rest : List Char} (h : afterSequence? cs = some rest) :
    rest.length < cs.length := by
  induction cs with
  | nil => simp [afterSequence?] at h
  | cons c cs ih =>
      rw [afterSequence?] at h
      split at h
      · exact Nat.lt_succ_of_lt (ih h)
      · split at h
        · cases h
          simp
        · cases h

/-- The text without terminal control sequences: an escape, a bracket, digits and marks, and a
letter. -/
def withoutSequences : List Char → List Char
  | [] => []
  | '\x1b' :: '[' :: cs =>
      match h : afterSequence? cs with
      | some rest =>
          have : rest.length < cs.length := length_of_afterSequence? h
          withoutSequences rest
      | none => '\x1b' :: withoutSequences ('[' :: cs)
  | c :: cs => c :: withoutSequences cs
termination_by cs => cs.length

/-- A text put out as it is, but for terminal control sequences. -/
def echo (text : String) : String :=
  String.ofList (withoutSequences text.toList ++ ['\n'])

end GrammarRules.Console
