/-!
# Checking given values

A check of a value either yields what it stands for or lists all that is wrong with it, each issue
with the path to the place where it was found. Checks of several places are combined by
`Checked.map₂`, which keeps the issues of both in order.
-/

namespace GrammarRules

inductive Defect where
  | missing
  | notText
  | notList
  | notChoice
  | notRule
  | kindMissing
  | kindUnknown
  | notFlag
  | unreadableFlag
  deriving DecidableEq, Repr

def Defect.code : Defect → String
  | .missing => "missing"
  | .notText => "string_type"
  | .notList => "tuple_type"
  | .notChoice => "enum"
  | .notRule => "model_attributes_type"
  | .kindMissing => "union_tag_not_found"
  | .kindUnknown => "union_tag_invalid"
  | .notFlag => "bool_type"
  | .unreadableFlag => "bool_parsing"

structure Issue where
  path : List String
  defect : Defect
  deriving DecidableEq, Repr

def Issue.under (place : String) (issue : Issue) : Issue :=
  { issue with path := place :: issue.path }

abbrev Checked (α : Type) := Except (List Issue) α

namespace Checked

variable {α β γ : Type}

def fail (defect : Defect) : Checked α := .error [⟨[], defect⟩]

/-- The same check, made at a place inside a larger value. -/
def under (place : String) (check : Checked α) : Checked α :=
  check.mapError fun issues => issues.map (Issue.under place)

def map₂ (f : α → β → γ) : Checked α → Checked β → Checked γ
  | .ok a, .ok b => .ok (f a b)
  | .ok _, .error issues => .error issues
  | .error issues, .ok _ => .error issues
  | .error first, .error second => .error (first ++ second)

@[simp] theorem under_eq_ok_iff {place : String} {check : Checked α} {a : α} :
    check.under place = .ok a ↔ check = .ok a := by
  cases check with
  | ok b => exact Iff.rfl
  | error issues => exact iff_of_false (by rintro ⟨⟩) (by rintro ⟨⟩)

@[simp] theorem map₂_eq_ok_iff {f : α → β → γ} {first : Checked α} {second : Checked β} {c : γ} :
    map₂ f first second = .ok c ↔ ∃ a b, first = .ok a ∧ second = .ok b ∧ f a b = c := by
  cases first <;> cases second <;> simp [map₂]

end Checked
end GrammarRules
