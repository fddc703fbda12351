/-!
# Quoted literals

A literal is written between double quotes, and a double quote inside it takes a backslash in
front. All other characters, backslashes included, are written as they are.
-/

namespace GrammarRules.Text

def escapeQuotes : List Char → List Char
  | [] => []
  | c :: cs => if c = '"' then '\\' :: c :: escapeQuotes cs else c :: escapeQuotes cs

def quotedChars (cs : List Char) : List Char := '"' :: (escapeQuotes cs ++ ['"'])

def quote (text : String) : String := String.ofList (quotedChars text.toList)

end GrammarRules.Text
