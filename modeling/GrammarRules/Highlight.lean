import GrammarRules.Mode
import GrammarRules.Text.Lines

/-!
# Highlighted grammars

The lines of a grammar are set in two styles, one for the name and the operator of a definition
and one for its expression; a line without an operator is all expression. A styled text drops the
control characters that would move the cursor, and keeps its spans in order.
-/

namespace GrammarRules

inductive Style where
  | head
  | expression
  deriving DecidableEq, Repr

def Style.colour : Style → String
  | .head => "magenta"
  | .expression => "white"

structure Span where
  start : Nat
  stop : Nat
  style : Style
  deriving DecidableEq, Repr

structure Styled where
  chars : List Char := []
  spans : List Span := []
  deriving DecidableEq, Repr

namespace Styled

def isControl (c : Char) : Bool := c ∈ ['\x07', '\x08', '\x0b', '\x0c', '\x0d']

def visible (cs : List Char) : List Char := cs.filter fun c => !isControl c

/-- The text with a piece added in a style. A piece of control characters leaves an empty span. -/
def append (t : Styled) (piece : List Char) (style : Style) : Styled :=
  if piece.isEmpty then t
  else
    let added := visible piece
    let start := t.chars.length
    ⟨t.chars ++ added, t.spans ++ [⟨start, start + added.length, style⟩]⟩

def newline (t : Styled) : Styled := ⟨t.chars ++ ['\n'], t.spans⟩

end Styled

namespace Highlight

/-- What stands before and after the first occurrence of `mark` in `cs`. -/
def cut? (mark : List Char) : List Char → Option (List Char × List Char)
  | [] => if mark.isEmpty then some ([], []) else none
  | c :: cs =>
      if mark.isPrefixOf (c :: cs) then some ([], (c :: cs).drop mark.length)
      else (cut? mark cs).map fun (before, after) => (c :: before, after)

def line (mode : Mode) (t : Styled) (cs : List Char) : Styled :=
  let operator := mode.operator.toList
  match cut? operator cs with
  | none => t.append cs .expression
  | some (name, expression) =>
      ((t.append name .head).append operator .head).append expression .expression

/-- The lines added to `t`, each but the first of the text after a line feed. -/
def linesAfter (mode : Mode) (t : Styled) (lines : List (List Char)) : Styled :=
  lines.foldl (fun t cs => line mode t.newline cs) t

def ofLines (mode : Mode) : List (List Char) → Styled
  | [] => {}
  | cs :: lines => linesAfter mode (line mode {} cs) lines

def text (mode : Mode) (grammar : String) : Styled := ofLines mode (Text.lines grammar.toList)

end Highlight
end GrammarRules
