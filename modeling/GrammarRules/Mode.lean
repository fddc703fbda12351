/-!
# The two notations

A grammar is written either as GBNF, with definitions `name ::= expression` entered at `root`, or
as Lark EBNF, with definitions `name: expression` entered at `start`. Names join their words with
`-` in the first and with `_` in the second.
-/

namespace GrammarRules

/-- The notation a grammar is written in. -/
inductive Mode where
  | gbnf
  | ebnf
  deriving DecidableEq, Repr

namespace Mode

def tag : Mode → String
  | .gbnf => "gbnf"
  | .ebnf => "ebnf"

def ofTag? (tag : String) : Option Mode :=
  if tag = "gbnf" then some .gbnf else if tag = "ebnf" then some .ebnf else none

/-- The character between two words of a name. -/
def separator : Mode → Char
  | .gbnf => '-'
  | .ebnf => '_'

/-- The name of the definition a reader of the grammar starts from. -/
def entryToken : Mode → String
  | .gbnf => "root"
  | .ebnf => "start"

/-- What stands between the name and the expression of a definition. -/
def operator : Mode → String
  | .gbnf => " ::= "
  | .ebnf => ": "

theorem ofTag?_tag (mode : Mode) : ofTag? mode.tag = some mode := by
  cases mode <;> decide

end Mode
end GrammarRules
