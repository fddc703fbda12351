/-!
# Patterns between slashes

A pattern is written between slashes in Lark EBNF. A slash inside it takes a backslash in front,
unless it is already escaped: a backslash escapes the character after it, an escaped backslash
escapes nothing.
-/

namespace GrammarRules.Text

/-- `escaped` tells whether the character before `cs` is an active backslash. -/
def escapeSlashesFrom (escaped : Bool) : List Char → List Char
  | [] => []
  | c :: cs =>
      let rest := c :: escapeSlashesFrom (c = '\\' && !escaped) cs
      if c = '/' && !escaped then '\\' :: rest else rest

def escapeSlashes (pattern : String) : String :=
  String.ofList (escapeSlashesFrom false pattern.toList)

end GrammarRules.Text
