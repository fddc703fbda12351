import GrammarRules.Data.Number
import GrammarRules.Value

/-!
# Equal values

Values are equal if they are the same rule or the same data. Equal values are hashed by equal keys;
so are some others, as a key keeps less than the value. Lists and records have no key.
-/

namespace GrammarRules

inductive Key where
  | null
  | number (residue : Int)
  /-- The key of every number that is undefined. -/
  | undefined
  | text (s : String)
  | part (p : Part)
  deriving DecidableEq

namespace Value

/-- Equality of values; deferred values are never equal. -/
def same : Value → Value → Bool
  | .part p, .part q => p = q
  | .bare c, .bare d => c = d
  | .data d, .data e => d.same e
  | _, _ => false

def numberKey (x : Quantity) : Key :=
  match x.residue? with
  | some residue => .number residue
  | none => .undefined

/-- The empty text has the key of zero. -/
def textKey (s : String) : Key := if s.isEmpty then .number 0 else .text s

def dataKey : Data → Except Error Key
  | .null => .ok .null
  | .text s => .ok (textKey s)
  | .flag value => .ok (.number (if value then 1 else 0))
  | .int value => .ok (numberKey (.finite value))
  | .decimal value => .ok (numberKey value.quantity)
  | d => .error (.unhashable d.kind)

/-- What a value is hashed by; a deferred value is hashed by nothing it shares with others. A node
without a kind has the key of its cardinality. -/
def key? : Value → Except Error (Option Key)
  | .part (.literal s) => .ok (some (textKey s))
  | .part p => .ok (some (.part p))
  | .bare c => (dataKey (Part.cardinalityData c)).map some
  | .data d => (dataKey d).map some
  | .deferred _ => .ok none

/-- Whether two values are hashed by equal keys. -/
def sameKey (v w : Value) : Except Error Bool := do
  let k ← v.key?
  let l ← w.key?
  return k.isSome && k = l

end Value
end GrammarRules
