import GrammarRules.Combinators
import GrammarRules.Proofs.Part.WellFormed

/-!
# Range literals and written ranges

A range literal is a bracketed pattern which the glyph of a cardinality may follow, and in GBNF a
range is written in the same way. So a range literal is read as the one range that is written as
this text, and every other text is refused with an error that shows it.
-/

namespace GrammarRules

namespace Range

theorem isBracketed_iff_ends {cs : List Char} :
    IsBracketed cs ↔ 2 ≤ cs.length ∧ cs.head? = some '[' ∧ cs.getLast? = some ']' := by
  constructor
  · rintro ⟨body, rfl⟩
    refine ⟨by simp, rfl, ?_⟩
    rw [← List.cons_append, List.getLast?_concat]
  · rintro ⟨hlength, hfirst, hlast⟩
    obtain ⟨front, rfl⟩ := List.getLast?_eq_some_iff.mp hlast
    cases front with
    | nil => simp at hlength
    | cons c body =>
      have hc : c = '[' := Option.some.inj hfirst
      exact ⟨body, by rw [hc, List.cons_append]⟩

theorem split?_append_glyphChars {cs : List Char} (h : IsBracketed cs) (c : Option Cardinality) :
    split? (cs ++ Part.glyphChars c) = some (cs, c) := by
  obtain ⟨body, rfl⟩ := h
  cases c with
  | none => simp [split?, Part.glyphChars]
  | some g =>
    have hends : '[' :: (body ++ [']', g.glyph]) = ('[' :: (body ++ [']'])) ++ [g.glyph] := by simp
    have hpattern : ('[' :: (body ++ [']', g.glyph])).dropLast = '[' :: (body ++ [']']) := by
      rw [hends, List.dropLast_concat]
    -- no glyph is a bracket
    cases g <;> simp [split?, Part.glyphChars, hpattern] <;> rfl

end Range

theorem Part.toList_render_range_gbnf (pattern : String) (c : Option Cardinality) :
    ((Part.range pattern c).render .gbnf).toList = pattern.toList ++ glyphChars c := by
  rw [render, String.toList_ofList]
  rfl

/-- A range literal is read as the range that is written like it in GBNF. -/
theorem Range.ofText?_eq_some_iff {text : String} {p : Part} :
    ofText? text = some p ↔
      ∃ pattern c, p = .range pattern c ∧ IsBracketed pattern.toList ∧ p.render .gbnf = text := by
  constructor
  · intro h
    obtain ⟨pattern, c, rfl, hpattern, htext⟩ := ofText?_spec h
    refine ⟨pattern, c, rfl, hpattern, ?_⟩
    rw [← String.toList_inj, Part.toList_render_range_gbnf, htext]
  · rintro ⟨pattern, c, rfl, hpattern, rfl⟩
    rw [ofText?, Part.toList_render_range_gbnf, split?_append_glyphChars hpattern, Option.map_some]
    simp only [String.ofList_toList]

theorem Fault.suffix_message_malformedRange (text : String) :
    text.toList <:+ (Fault.malformedRange text).message.toList := by
  obtain ⟨lead, hmessage⟩ : ∃ lead, (Fault.malformedRange text).message = lead ++ text := ⟨_, rfl⟩
  rw [hmessage, String.toList_append]
  exact List.suffix_append _ _

namespace Builder

variable {b : Builder} {text : String} {v : Value}

theorem range_eq_ok_iff :
    b.range text = .ok v ↔
      ∃ pattern c, v = .part (.range pattern c) ∧ Range.IsBracketed pattern.toList ∧
        (Part.range pattern c).render .gbnf = text := by
  constructor
  · intro h
    rw [range] at h
    split at h
    · next p hp =>
      cases h
      obtain ⟨pattern, c, rfl, hpattern, htext⟩ := Range.ofText?_eq_some_iff.mp hp
      exact ⟨pattern, c, rfl, hpattern, htext⟩
    · cases h
  · rintro ⟨pattern, c, rfl, hpattern, htext⟩
    rw [range, Range.ofText?_eq_some_iff.mpr ⟨pattern, c, rfl, hpattern, htext⟩]

theorem range_eq_error {e : Error} (h : b.range text = .error e) :
    e = .grammar (.malformedRange text b.rule) := by
  rw [range] at h
  split at h
  · cases h
  · cases h
    rfl

/-- A text is either read as a range that is written as this text in GBNF, or refused with an error
that ends with it and blames the rule of the builder. It is read exactly if it is a bracketed
pattern, which a glyph may follow, and each bracketed range is read back from its text. -/
theorem range_inverse_to_rendering (b : Builder) :
    (∀ text : String,
      (∃ pattern c, b.range text = .ok (.part (.range pattern c)) ∧
        (Part.range pattern c).render .gbnf = text) ∨
      ∃ e, b.range text = .error (.grammar e) ∧ e.fault.family = .input ∧
        text.toList <:+ e.fault.message.toList ∧
        e.context = b.rule.map fun rule => { rule := rule, mode := .gbnf }) ∧
    (∀ text : String, (∃ v, b.range text = .ok v) ↔
      ∃ q c, 2 ≤ q.length ∧ q.head? = some '[' ∧ q.getLast? = some ']' ∧
        text.toList = q ++ Part.glyphChars c) ∧
    ∀ (pattern : String) (c : Option Cardinality), 2 ≤ pattern.toList.length →
      pattern.toList.head? = some '[' → pattern.toList.getLast? = some ']' →
      b.range ((Part.range pattern c).render .gbnf) = .ok (.part (.range pattern c)) := by
  refine ⟨fun text => ?_, fun text => ⟨?_, ?_⟩, fun pattern c hlength hfirst hlast => ?_⟩
  · cases hread : b.range text with
    | ok v =>
      obtain ⟨pattern, c, rfl, -, hwritten⟩ := range_eq_ok_iff.mp hread
      exact Or.inl ⟨pattern, c, rfl, hwritten⟩
    | error e =>
      rw [range_eq_error hread]
      exact Or.inr ⟨.malformedRange text b.rule, rfl, rfl,
        Fault.suffix_message_malformedRange text, rfl⟩
  · rintro ⟨v, hv⟩
    obtain ⟨pattern, c, -, hpattern, rfl⟩ := range_eq_ok_iff.mp hv
    obtain ⟨hlength, hfirst, hlast⟩ := Range.isBracketed_iff_ends.mp hpattern
    exact ⟨pattern.toList, c, hlength, hfirst, hlast, Part.toList_render_range_gbnf pattern c⟩
  · rintro ⟨q, c, hlength, hfirst, hlast, htext⟩
    have hpattern := Range.isBracketed_iff_ends.mpr ⟨hlength, hfirst, hlast⟩
    rw [← String.toList_ofList (l := q)] at hpattern htext
    rw [← Part.toList_render_range_gbnf, String.toList_inj] at htext
    exact ⟨_, range_eq_ok_iff.mpr ⟨String.ofList q, c, rfl, hpattern, htext.symm⟩⟩
  · have hpattern := Range.isBracketed_iff_ends.mpr ⟨hlength, hfirst, hlast⟩
    exact range_eq_ok_iff.mpr ⟨pattern, c, rfl, hpattern, rfl⟩

/-- A glyph inside the brackets and one in front of the last bracket belong to the pattern. -/
theorem range_with_glyphs_read_back :
    (Part.range "[?+]*]" (some .zeroOrMore)).render .gbnf = "[?+]*]*" ∧
      range {} "[?+]*]*" = .ok (.part (.range "[?+]*]" (some .zeroOrMore))) := by
  have hrender : (Part.range "[?+]*]" (some .zeroOrMore)).render .gbnf = "[?+]*]*" := by cbv
  have hread := (range_inverse_to_rendering {}).2.2 "[?+]*]" (some .zeroOrMore) (by decide) rfl
    (by decide)
  rw [hrender] at hread
  exact ⟨hrender, hread⟩

end Builder
end GrammarRules
