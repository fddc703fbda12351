import Mathlib
import GrammarRules.Grammar

/-!
# Putting a value into a registry

A value put under a name replaces the value in its place, or comes last with its name. Values under
other names stay, and so do the names and their order.
-/

namespace GrammarRules.Registry

variable (r : Registry) (name key : String) (value : Value)

theorem names_putEntry (entries : List (String × Value)) :
    (putEntry name value entries).map Prod.fst =
      if name ∈ entries.map Prod.fst then entries.map Prod.fst
      else entries.map Prod.fst ++ [name] := by
  induction entries with
  | nil => rfl
  | cons entry entries ih =>
    obtain ⟨n, v⟩ := entry
    by_cases hn : n = name
    · simp [putEntry, hn]
    · simp only [putEntry, if_neg hn, List.map_cons, ih, List.mem_cons, Ne.symm hn, false_or]
      split <;> rfl

theorem lookup_putEntry (entries : List (String × Value)) :
    (putEntry name value entries).lookup key =
      if key = name then some value else entries.lookup key := by
  induction entries with
  | nil =>
    by_cases hk : key = name
    · simp [putEntry, hk]
    · have hbeq : (key == name) = false := by simpa using hk
      simp [putEntry, List.lookup, hk, hbeq]
  | cons entry entries ih =>
    obtain ⟨n, v⟩ := entry
    by_cases hn : n = name
    · subst hn
      by_cases hk : key = n
      · simp [putEntry, hk]
      · have hbeq : (key == n) = false := by simpa using hk
        simp [putEntry, List.lookup, hk, hbeq]
    · simp only [putEntry, if_neg hn, List.lookup_cons, ih]
      by_cases hk : key = n
      · have : key ≠ name := fun h => hn (hk.symm.trans h)
        simp [hk, hn]
      · have hbeq : (key == n) = false := by simpa using hk
        simp only [hbeq]

theorem mem_putEntry {entry : String × Value} {entries : List (String × Value)}
    (h : entry ∈ putEntry name value entries) : entry = (name, value) ∨ entry ∈ entries := by
  induction entries with
  | nil => exact Or.inl (List.mem_singleton.mp h)
  | cons first entries ih =>
    rw [putEntry] at h
    split at h
    · next hname =>
      rcases List.mem_cons.mp h with heq | h
      · exact Or.inl (hname ▸ heq)
      · exact Or.inr (List.mem_cons_of_mem _ h)
    · rcases List.mem_cons.mp h with heq | h
      · exact Or.inr (heq ▸ List.mem_cons_self)
      · exact (ih h).imp_right (List.mem_cons_of_mem _)

theorem names_put : (r.put name value).names =
    if name ∈ r.names then r.names else r.names ++ [name] :=
  names_putEntry name value r.entries

theorem get?_put : (r.put name value).get? key =
    if key = name then some value else r.get? key :=
  lookup_putEntry name key value r.entries

theorem names_put_of_mem (h : name ∈ r.names) : (r.put name value).names = r.names := by
  rw [names_put, if_pos h]

theorem names_put_of_not_mem (h : name ∉ r.names) :
    (r.put name value).names = r.names ++ [name] := by
  rw [names_put, if_neg h]

theorem mem_names_put : key ∈ (r.put name value).names ↔ key = name ∨ key ∈ r.names := by
  rw [names_put]
  split
  · constructor
    · exact Or.inr
    · rintro (rfl | h) <;> assumption
  · rw [List.mem_append, List.mem_singleton, or_comm]

theorem nodup_names_put (h : r.names.Nodup) : (r.put name value).names.Nodup := by
  rw [names_put]
  split
  · exact h
  · next hn => exact h.append (List.nodup_singleton name) (by simpa using hn)

theorem get?_isSome_iff : (r.get? key).isSome ↔ key ∈ r.names := by
  simp only [get?, names, List.mem_map]
  induction r.entries with
  | nil => simp
  | cons entry entries ih =>
    obtain ⟨n, v⟩ := entry
    by_cases hk : key = n
    · simp [hk]
    · have hbeq : (key == n) = false := by simpa using hk
      simp only [List.lookup_cons, hbeq, ih, List.mem_cons, exists_eq_or_imp, Ne.symm hk, false_or]

end GrammarRules.Registry

namespace GrammarRules.Grammar

variable (g : Grammar) (name : String) (value : Value)

theorem isFinal_iff : g.isFinal ↔ Name.root ∈ g.rules.names := by
  simp [isFinal, Registry.contains]

@[simp] theorem rules_put : (g.put name value).rules = g.rules.put name value := rfl

theorem isFinal_put (h : g.isFinal) : (g.put name value).isFinal := by
  rw [isFinal_iff] at h ⊢
  exact (Registry.mem_names_put ..).mpr (Or.inr h)

theorem admits_eq_ok_iff : g.admits name = .ok () ↔
    Name.isBlank name = false ∧ name ≠ Name.root ∧ ¬ g.isFinal := by
  simp only [admits]
  split
  · simp_all
  · split
    · simp_all
    · split <;> simp_all

end GrammarRules.Grammar
