import GrammarRules.Proofs.Registry.Put

/-!
# Built texts

What is built is what the registry is written as, and only final grammars are built. The definitions
are written in the order of the registry, each on its own.
-/

namespace GrammarRules

namespace Registry

variable {mode : Mode}

theorem definitions_append (front back : List (String × Value)) :
    definitions mode (front ++ back) = do
      let lines ← definitions mode front
      let lines' ← definitions mode back
      return lines ++ lines' := by
  induction front with
  | nil =>
    simp only [List.nil_append, definitions]
    cases definitions mode back <;> rfl
  | cons entry front ih =>
    obtain ⟨name, value⟩ := entry
    simp only [List.cons_append, definitions, ih]
    cases definition mode name value with
    | error e => rfl
    | ok line =>
      cases definitions mode front with
      | error e => rfl
      | ok lines => cases definitions mode back <;> rfl

theorem definitions_concat_eq_ok {front : List (String × Value)} {name : String} {value : Value}
    {lines : List String} (h : definitions mode (front ++ [(name, value)]) = .ok lines) :
    ∃ before line, definition mode name value = .ok line ∧ lines = before ++ [line] := by
  rw [definitions_append] at h
  cases hfront : definitions mode front with
  | error e =>
    rw [hfront] at h
    cases h
  | ok before =>
    cases hline : definition mode name value with
    | error e =>
      simp only [hfront, definitions, hline] at h
      cases h
    | ok line =>
      simp only [hfront, definitions, hline] at h
      exact ⟨before, line, rfl, (Except.ok.inj h).symm⟩

theorem get?_of_mem {r : Registry} {name : String} {value : Value} (hnodup : r.names.Nodup)
    (hmem : (name, value) ∈ r.entries) : r.get? name = some value := by
  simp only [names, get?] at hnodup ⊢
  generalize r.entries = entries at hnodup hmem
  induction entries with
  | nil => simp at hmem
  | cons entry entries ih =>
    obtain ⟨n, v⟩ := entry
    rw [List.map_cons, List.nodup_cons] at hnodup
    rcases List.mem_cons.mp hmem with heq | hmem
    · cases heq
      simp
    · have hne : (name == n) = false :=
        beq_eq_false_iff_ne.mpr fun h => hnodup.1 (List.mem_map.mpr ⟨(name, value), hmem, h⟩)
      rw [List.lookup_cons, hne]
      exact ih hnodup.2 hmem

end Registry

namespace Grammar

variable {g : Grammar} {mode : Mode} {text : String}

theorem buildIn_of_isFinal (hfinal : g.isFinal) (mode : Mode) :
    g.buildIn mode = g.checkRefs mode >>= fun _ => g.rules.render mode := by
  simp only [buildIn, hfinal]
  rfl

theorem isFinal_of_buildIn (h : g.buildIn mode = .ok text) : g.isFinal := by
  by_contra hfinal
  simp only [Bool.not_eq_true] at hfinal
  simp only [buildIn, hfinal] at h
  cases h

theorem render_of_buildIn (h : g.buildIn mode = .ok text) : g.rules.render mode = .ok text := by
  rw [buildIn_of_isFinal (isFinal_of_buildIn h)] at h
  cases hrefs : g.checkRefs mode with
  | error e =>
    rw [hrefs] at h
    cases h
  | ok _ =>
    rw [hrefs] at h
    exact h

end Grammar
end GrammarRules
