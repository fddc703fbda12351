import GrammarRules.Data

/-!
# Numbers

Numbers are compared by what they stand for, however they are written, and a flag is one or zero.
A decimal is kept to fifty-three binary digits: it stands for the nearest number that has no more of
them, and is infinite where that is `2 ^ 1024` or larger. Its last binary place is never below
`2 ^ (-1074)`.
-/

namespace GrammarRules

inductive Quantity where
  | finite (x : Rat)
  | infinite (negative : Bool)
  | undefined

/-- The whole number nearest to `num / den`, the even one of two. -/
def nearestWhole (num den : Nat) : Nat :=
  let whole := num / den
  let twice := 2 * (num % den)
  if den < twice ∨ twice = den ∧ whole % 2 = 1 then whole + 1 else whole

namespace Decimal

/-- The numerator and the denominator of `num / den / 2 ^ place`. -/
def scaled (num den : Nat) (place : Int) : Nat × Nat :=
  (num * Nat.pow 2 (-place).toNat, den * Nat.pow 2 place.toNat)

/-- The first binary place of `num / den`. -/
def firstPlace (num den : Nat) : Int :=
  let place : Int := num.log2 - den.log2
  let (n, d) := scaled num den place
  if d ≤ n then place else place - 1

/-- What `num / den` is kept as, unless that is infinite. -/
def kept? (num den : Nat) : Option Rat :=
  let last := max (firstPlace num den - 52) (-1074)
  let (n, d) := scaled num den last
  let (n, d) := scaled (nearestWhole n d) 1 (-last)
  if Nat.pow 2 1024 * d ≤ n then none else some (mkRat n d)

def quantity : Decimal → Quantity
  | .finite negative digits places =>
      match kept? digits (Nat.pow 10 places) with
      | some x => .finite (if negative then -x else x)
      | none => .infinite negative
  | .infinite negative => .infinite negative
  | .undefined => .undefined

end Decimal

namespace Quantity

/-- Equality of quantities; an undefined one equals nothing. -/
def same : Quantity → Quantity → Bool
  | .finite x, .finite y => x = y
  | .infinite m, .infinite n => m = n
  | _, _ => false

/-- The prime by which numbers are hashed. -/
def hashPrime : Nat := Nat.pow 2 61 - 1

/-- The size of an infinite residue. -/
def infiniteResidue : Int := 314159

/-- The residue of a quantity whose denominator is a power of two, with the sign of the quantity;
the residue of one half is `2 ^ 60`. Minus one is not in use, and minus two stands for it. -/
def residue? : Quantity → Option Int
  | .finite x =>
      let size := (x.num.natAbs * Nat.pow 2 (60 * x.den.log2)) % hashPrime
      let signed : Int := if x.num < 0 then -size else size
      some (if signed = -1 then -2 else signed)
  | .infinite negative => some (if negative then -infiniteResidue else infiniteResidue)
  | .undefined => none

end Quantity

namespace Data

/-- What a value stands for, if it is a number or a flag. -/
def quantity? : Data → Option Quantity
  | .flag value => some (.finite (if value then 1 else 0))
  | .int value => some (.finite value)
  | .decimal value => some value.quantity
  | _ => none

/-- One more than the largest whole number in a machine word. -/
def wordLimit : Int := Nat.pow 2 63

/-- The value as a whole number that fits into a machine word, if it is a number and one. -/
def whole? : Data → Option Int
  | .int value => if -wordLimit ≤ value ∧ value < wordLimit then some value else none
  | .decimal value =>
      match value.quantity with
      | .finite x => if x.den = 1 ∧ x.num.natAbs < wordLimit then some x.num else none
      | _ => none
  | _ => none

/-- Equality of data, of numbers by what they stand for. -/
def same (d e : Data) : Bool :=
  match d.quantity?, e.quantity? with
  | some x, some y => x.same y
  | none, none => d == e
  | _, _ => false

end Data
end GrammarRules
