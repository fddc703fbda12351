import Mathlib
import GrammarRules.Registry

/-!
# Sorted names

The names in an error are sorted and each is listed once. The list depends on which names there are,
and neither on their order nor on how often each occurs.
-/

namespace GrammarRules.Registry

variable {name n : String} {names names' : List String}

theorem mem_insertName : n ∈ insertName name names ↔ n = name ∨ n ∈ names := by
  induction names with
  | nil => simp [insertName]
  | cons m names ih =>
    rw [insertName]
    split_ifs with heq hlt
    · simp [heq]
    · exact List.mem_cons
    · rw [List.mem_cons, ih, List.mem_cons, or_left_comm]

theorem mem_sortNames : n ∈ sortNames names ↔ n ∈ names := by
  induction names with
  | nil => rfl
  | cons m names ih =>
    rw [sortNames, List.foldr_cons, ← sortNames, mem_insertName, ih, List.mem_cons]

theorem pairwise_insertName (h : names.Pairwise (· < ·)) :
    (insertName name names).Pairwise (· < ·) := by
  induction names with
  | nil => exact List.pairwise_singleton _ _
  | cons m names ih =>
    obtain ⟨hm, hnames⟩ := List.pairwise_cons.mp h
    rw [insertName]
    split_ifs with heq hlt
    · exact h
    · refine List.pairwise_cons.mpr ⟨fun k hk => ?_, h⟩
      rcases List.mem_cons.mp hk with rfl | hk
      · exact hlt
      · exact hlt.trans (hm k hk)
    · refine List.pairwise_cons.mpr ⟨fun k hk => ?_, ih hnames⟩
      rcases mem_insertName.mp hk with rfl | hk
      · exact lt_of_le_of_ne (not_lt.mp hlt) (Ne.symm heq)
      · exact hm k hk

theorem pairwise_sortNames (names : List String) : (sortNames names).Pairwise (· < ·) := by
  induction names with
  | nil => exact .nil
  | cons m names ih => exact pairwise_insertName ih

/-- The same names, in whatever order and however often, are listed alike. -/
theorem sortNames_eq_of_mem_iff (h : ∀ n, n ∈ names ↔ n ∈ names') :
    sortNames names = sortNames names' :=
  (pairwise_sortNames names).eq_of_mem_iff (pairwise_sortNames names') fun n => by
    rw [mem_sortNames, mem_sortNames, h]

end GrammarRules.Registry
