import GrammarRules.Text.Printable

/-!
# Texts shown in messages

A text is shown between single quotes, or between double quotes if it holds a single quote and no
double one. Backslashes and the quote in use take a backslash, line breaks and tabs have letters,
and other characters that are not printable are given by their code in two, four or eight digits.
A text may also be shown bare, with codes for its control characters alone.
-/

namespace GrammarRules.Text

def hexDigit (d : Nat) : Char :=
  if d < 10 then Char.ofNat ('0'.toNat + d) else Char.ofNat ('a'.toNat + (d - 10))

/-- The last `width` hexadecimal digits of `n`. -/
def hexDigits : (width n : Nat) → List Char
  | 0, _ => []
  | width + 1, n => hexDigits width (n / 16) ++ [hexDigit (n % 16)]

/-- The code of a character, in digits enough. -/
def showCode (c : Char) : List Char :=
  if c.toNat < 0x100 then '\\' :: 'x' :: hexDigits 2 c.toNat
  else if c.toNat < 0x10000 then '\\' :: 'u' :: hexDigits 4 c.toNat
  else '\\' :: 'U' :: hexDigits 8 c.toNat

def showChar (quoteMark c : Char) : List Char :=
  if c = '\\' || c = quoteMark then ['\\', c]
  else if c = '\n' then ['\\', 'n']
  else if c = '\r' then ['\\', 'r']
  else if c = '\t' then ['\\', 't']
  else if isPrintable c then [c]
  else showCode c

def shownChars (cs : List Char) : List Char :=
  let quoteMark := if cs.contains '\x27' && !cs.contains '"' then '"' else '\x27'
  quoteMark :: (cs.flatMap (showChar quoteMark) ++ [quoteMark])

def shown (text : String) : String := String.ofList (shownChars text.toList)

def isControl (c : Char) : Bool := c.toNat < 0x20 || (0x7f ≤ c.toNat && c.toNat < 0xa0)

/-- The text with the codes of its control characters in their places. -/
def shownBare (text : String) : String :=
  String.ofList (text.toList.flatMap fun c => if isControl c then showCode c else [c])

end GrammarRules.Text
