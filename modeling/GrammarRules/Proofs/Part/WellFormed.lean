import GrammarRules.Part.Render
import GrammarRules.Proofs.Name.Token
import GrammarRules.Range

/-!
# Well-formed parts

The combinators make references that have a token and ranges that are bracketed texts. A part is
well formed if all its nodes are so, at any depth. A range literal is its pattern with the glyph of
its cardinality after it, and so the pattern has no glyph left.
-/

namespace GrammarRules

theorem Cardinality.glyph_of_ofGlyph? {c : Char} {g : Cardinality} (h : ofGlyph? c = some g) :
    g.glyph = c := by
  rw [ofGlyph?] at h
  split_ifs at h with hstar hplus hmark <;> cases h <;> exact Eq.symm ‹_›

namespace Range

def IsBracketed (cs : List Char) : Prop := ∃ body, cs = '[' :: (body ++ [']'])

theorem isBracketed_of_ends {cs first last : List Char} (hfirst : cs = '[' :: first)
    (hlast : cs.reverse = ']' :: last) : IsBracketed cs := by
  have hcs : cs = last.reverse ++ [']'] := by
    rw [← List.reverse_reverse cs, hlast, List.reverse_cons]
  cases hbody : last.reverse with
  | nil =>
    rw [hbody, hfirst] at hcs
    exact absurd (List.cons.inj hcs).1 (by decide)
  | cons c body =>
    rw [hbody, hfirst, List.cons_append] at hcs
    obtain ⟨-, hrest⟩ := List.cons.inj hcs
    exact ⟨body, by rw [hfirst, hrest]⟩

/-- The glyph of a range literal is split off its pattern. -/
theorem split?_spec {cs pattern : List Char} {c : Option Cardinality}
    (h : split? cs = some (pattern, c)) :
    IsBracketed pattern ∧ cs = pattern ++ Part.glyphChars c := by
  simp only [split?] at h
  split at h
  · next first last hlast =>
    cases h
    exact ⟨isBracketed_of_ends rfl hlast, (List.append_nil _).symm⟩
  · next first glyph last _ hlast =>
    obtain ⟨g, hg, heq⟩ := Option.map_eq_some_iff.mp h
    cases heq
    cases first with
    | nil => cases hlast
    | cons c first =>
      have hpattern : (('[' :: c :: first).dropLast).reverse = ']' :: last := by
        rw [← List.tail_reverse, hlast, List.tail_cons]
      have hglyph : ('[' :: c :: first).getLast (List.cons_ne_nil _ _) = glyph := by
        rw [← List.head_reverse (by simp)]
        simp only [hlast, List.head_cons]
      refine ⟨isBracketed_of_ends rfl hpattern, ?_⟩
      rw [Part.glyphChars, Option.map_some, Cardinality.glyph_of_ofGlyph? hg, ← hglyph]
      exact (List.dropLast_append_getLast _).symm
  · cases h

theorem ofText?_spec {text : String} {p : Part} (h : ofText? text = some p) :
    ∃ pattern c, p = .range pattern c ∧ IsBracketed pattern.toList ∧
      text.toList = pattern.toList ++ Part.glyphChars c := by
  obtain ⟨⟨pattern, c⟩, hsplit, rfl⟩ := Option.map_eq_some_iff.mp h
  obtain ⟨hpattern, htext⟩ := split?_spec hsplit
  exact ⟨String.ofList pattern, c, rfl, by simpa using hpattern, by simpa using htext⟩

end Range

namespace Part

mutual

def nodes : Part → List Part
  | .literal text => [.literal text]
  | .sequence parts c => .sequence parts c :: nodesOfAll parts
  | .oneOf options c => .oneOf options c :: nodesOfAll options
  | .ref name c => [.ref name c]
  | .range pattern c => [.range pattern c]

def nodesOfAll : List Part → List Part
  | [] => []
  | p :: ps => p.nodes ++ nodesOfAll ps

end

theorem forall_mem_nodesOfAll {P : Part → Prop} {parts : List Part} :
    (∀ q ∈ nodesOfAll parts, P q) ↔ ∀ p ∈ parts, ∀ q ∈ p.nodes, P q := by
  induction parts with
  | nil => simp [nodesOfAll]
  | cons p ps ih => simp only [nodesOfAll, List.forall_mem_append, List.forall_mem_cons, ih]

def NodeFormed : Part → Prop
  | .ref name _ => ∀ mode, Name.token mode name ≠ ""
  | .range pattern _ => Range.IsBracketed pattern.toList
  | .literal _ | .sequence .. | .oneOf .. => True

def WellFormed (p : Part) : Prop := ∀ q ∈ p.nodes, q.NodeFormed

theorem wellFormed_literal (text : String) : (literal text).WellFormed := by
  simp [WellFormed, nodes, NodeFormed]

theorem wellFormed_sequence_iff {parts : List Part} {c : Option Cardinality} :
    (sequence parts c).WellFormed ↔ ∀ p ∈ parts, p.WellFormed := by
  simp only [WellFormed, nodes, List.forall_mem_cons, forall_mem_nodesOfAll]
  exact and_iff_right trivial

theorem wellFormed_oneOf_iff {options : List Part} {c : Option Cardinality} :
    (oneOf options c).WellFormed ↔ ∀ p ∈ options, p.WellFormed := by
  simp only [WellFormed, nodes, List.forall_mem_cons, forall_mem_nodesOfAll]
  exact and_iff_right trivial

theorem wellFormed_ref_iff {name : String} {c : Option Cardinality} :
    (ref name c).WellFormed ↔ ∀ mode, Name.token mode name ≠ "" := by
  simp [WellFormed, nodes, NodeFormed]

theorem wellFormed_range_iff {pattern : String} {c : Option Cardinality} :
    (range pattern c).WellFormed ↔ Range.IsBracketed pattern.toList := by
  simp [WellFormed, nodes, NodeFormed]

end Part
end GrammarRules
