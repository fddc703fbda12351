/-!
# Plain data

Values a rule, an option or a description of a rule may be given as before anything is known about
them: nothing, flags, numbers, text, lists, and records of named fields. Whole numbers are kept
apart from those that are written with a point or an exponent, which may be infinite or undefined.
-/

namespace GrammarRules

inductive Decimal where
  /-- The number `digits / 10 ^ places`, or its negative. -/
  | finite (negative : Bool) (digits places : Nat)
  | infinite (negative : Bool)
  | undefined
  deriving DecidableEq, Repr

inductive Data where
  | null
  | flag (value : Bool)
  | int (value : Int)
  | decimal (value : Decimal)
  | text (value : String)
  | list (items : List Data)
  | record (fields : List (String × Data))
  deriving BEq, Inhabited, Repr

namespace Data

abbrev Fields := List (String × Data)

/-- The name messages use for the kind of a value. -/
def kind : Data → String
  | .null => "NoneType"
  | .flag _ => "bool"
  | .int _ => "int"
  | .decimal _ => "float"
  | .text _ => "str"
  | .list _ => "list"
  | .record _ => "dict"

def optText : Option String → Data
  | none => .null
  | some s => .text s

end Data
end GrammarRules
