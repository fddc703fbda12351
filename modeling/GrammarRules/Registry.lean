import GrammarRules.Value

/-!
# The registry of rules

A registry keeps the value of each rule under its name, in the order in which the names were first
defined. It is written one definition after the other. A reference dangles if its token is the
token of no name in the registry.
-/

namespace GrammarRules

structure Registry where
  entries : List (String × Value) := []

namespace Registry

def names (r : Registry) : List String := r.entries.map Prod.fst

def contains (r : Registry) (name : String) : Bool := r.names.contains name

def get? (r : Registry) (name : String) : Option Value := r.entries.lookup name

def size (r : Registry) : Nat := r.entries.length

/-- The entries with `value` under `name`: in the place of the old value, or at the end. -/
def putEntry (name : String) (value : Value) : List (String × Value) → List (String × Value)
  | [] => [(name, value)]
  | (n, v) :: entries =>
      if n = name then (n, value) :: entries else (n, v) :: putEntry name value entries

def put (r : Registry) (name : String) (value : Value) : Registry :=
  ⟨putEntry name value r.entries⟩

/-- The definition of one rule. -/
def definition (mode : Mode) (name : String) (value : Value) : Except Error String := do
  let expression ← value.render mode
  return Name.token mode name ++ mode.operator ++ expression

def definitions (mode : Mode) : List (String × Value) → Except Error (List String)
  | [] => return []
  | (name, value) :: entries => do
      let line ← definition mode name value
      let lines ← definitions mode entries
      return line :: lines

/-- The text of a grammar: its definitions, one a line. -/
def render (mode : Mode) (r : Registry) : Except Error String := do
  let lines ← definitions mode r.entries
  return "\n".intercalate lines

/-- The tokens that are defined, in the form in which references are compared. -/
def tokens (r : Registry) : List String := r.names.map (Name.token .gbnf)

def danglingIn (defined : List String) :
    List (String × Value) → Except Error (List (String × String))
  | [] => return []
  | (name, value) :: entries => do
      let refs ← value.refs
      let rest ← danglingIn defined entries
      let missing := refs.filter fun ref => !defined.contains (Name.token .gbnf ref.name)
      return missing.map (fun ref => (name, ref.name)) ++ rest

/-- The references without a definition, each with the rule in which it stands. -/
def dangling (r : Registry) : Except Error (List (String × String)) :=
  danglingIn r.tokens r.entries

/-- A name added to names in increasing order, unless it is among them. -/
def insertName (name : String) : List String → List String
  | [] => [name]
  | n :: ns =>
      if name = n then n :: ns
      else if name < n then name :: n :: ns
      else n :: insertName name ns

def sortNames (names : List String) : List String := names.foldr insertName []

end Registry
end GrammarRules
