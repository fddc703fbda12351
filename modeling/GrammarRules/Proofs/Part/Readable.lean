import GrammarRules.Part.Render
import GrammarRules.Proofs.Name.Token

/-!
# Readable parts

The leaves of a readable part can be read again once they are written: its literals hold no
backslash, its references have a token, and its ranges are single character classes without
brackets and backslashes inside.
-/

namespace GrammarRules.Part

/-- What holds of the leaves, and of a node if it holds of all its parts, holds of every part. -/
@[elab_as_elim, induction_eliminator]
theorem tree_induction {P : Part → Prop} (literal : ∀ text, P (.literal text))
    (sequence : ∀ parts c, (∀ p ∈ parts, P p) → P (.sequence parts c))
    (oneOf : ∀ options c, (∀ p ∈ options, P p) → P (.oneOf options c))
    (ref : ∀ name c, P (.ref name c)) (range : ∀ pattern c, P (.range pattern c)) (p : Part) :
    P p :=
  @Part.rec P (fun parts => ∀ p ∈ parts, P p) literal sequence oneOf ref range
    (fun _ h => nomatch h) (fun _ _ hp hps => List.forall_mem_cons.mpr ⟨hp, hps⟩) p

def children : Part → List Part
  | .sequence parts _ => parts
  | .oneOf options _ => options
  | .literal _ | .ref .. | .range .. => []

theorem children_induction {P : Part → Prop} (node : ∀ p, (∀ q ∈ p.children, P q) → P p) (p : Part) :
    P p := by
  induction p with
  | literal text => exact node _ fun _ h => nomatch h
  | sequence parts c ih => exact node _ ih
  | oneOf options c ih => exact node _ ih
  | ref name c => exact node _ fun _ h => nomatch h
  | range pattern c => exact node _ fun _ h => nomatch h

/-- A bracketed character class with nothing in it that would end it or hide its end. -/
def IsClass (cs : List Char) : Prop :=
  ∃ body, cs = '[' :: (body ++ [']']) ∧ ∀ c ∈ body, c ≠ '[' ∧ c ≠ ']' ∧ c ≠ '\\'

mutual

def Readable : Part → Prop
  | .literal text => '\\' ∉ text.toList
  | .sequence parts _ => AllReadable parts
  | .oneOf options _ => AllReadable options
  | .ref name _ => ∃ c ∈ name.toList, c.isAlphanum
  | .range pattern _ => IsClass pattern.toList

def AllReadable : List Part → Prop
  | [] => True
  | p :: ps => p.Readable ∧ AllReadable ps

end

theorem allReadable_iff {parts : List Part} : AllReadable parts ↔ ∀ p ∈ parts, p.Readable := by
  induction parts with
  | nil => simp [AllReadable]
  | cons p ps ih => simp [AllReadable, ih]

end GrammarRules.Part
