import GrammarRules.Mode
import GrammarRules.Name.Words

/-!
# Rule names

Rules are named in whatever casing the author likes and written as lower-case words joined by the
separator of the notation. The name `root` alone stands for the entry point and is written as the
entry token. Names without an ASCII letter or digit are blank: nothing of them can be written.
-/

namespace GrammarRules.Name

/-- The name under which the entry point of a grammar is kept. -/
def root : String := "root"

def words (name : String) : List String := (Words.split name.toList).map String.ofList

def normalize (mode : Mode) (name : String) : String :=
  String.ofList (Words.join mode.separator (Words.split name.toList))

def kebab (name : String) : String := normalize .gbnf name

def snake (name : String) : String := normalize .ebnf name

/-- A name of which nothing can be written. -/
def isBlank (name : String) : Bool := kebab name = ""

/-- How a definition of `name`, or a reference to it, is written. -/
def token (mode : Mode) (name : String) : String :=
  if name = root then mode.entryToken else normalize mode name

end GrammarRules.Name
