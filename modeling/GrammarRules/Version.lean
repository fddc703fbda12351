import GrammarRules.Text.Blank
import GrammarRules.Text.Lines

/-!
# The version

The version is the one that the project file sets, or else the one installed. The project file sets
it where a line starts with `version`, an equals sign and a text between quotes; blanks around the
sign, line breaks among them, do not matter, and either quote may end the text.
-/

namespace GrammarRules.Version

def current : String := "0.1.0"

def isQuote (c : Char) : Bool := c = '"' || c = '\x27'

/-- The version set by the line that `cs` starts with. -/
def setting? (cs : List Char) : Option (List Char) :=
  let key := "version".toList
  if !key.isPrefixOf cs then none
  else
    match (cs.drop key.length).dropWhile Text.isBlank with
    | '=' :: afterSign =>
        match afterSign.dropWhile Text.isBlank with
        | c :: value =>
            let version := value.takeWhile fun d => !isQuote d
            if isQuote c && !version.isEmpty && version.length < value.length then some version
            else none
        | [] => none
    | _ => none

/-- The version set by the first line that sets one; `atStart` tells whether `cs` starts a line. -/
def find? (atStart : Bool) : List Char → Option (List Char)
  | [] => none
  | c :: cs =>
      match if atStart then setting? (c :: cs) else none with
      | some version => some version
      | none => find? (c = '\n') cs

def ofProject? (project : String) : Option String :=
  (find? true (Text.unifyBreaks project.toList)).map String.ofList

def read (project? installed? : Option String) : String :=
  match project?.bind ofProject? with
  | some version => version
  | none => installed?.getD "0.0.0"

end GrammarRules.Version
