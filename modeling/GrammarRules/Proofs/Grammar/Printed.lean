import GrammarRules.Proofs.Console.Sequence
import GrammarRules.Proofs.Part.Foreign

/-!
# Printed grammars

Whether the text of a grammar is printed as it is depends on its literals and ranges alone. All that
is written around them is printed as it is, and control sequences are foreign to it. The text of
well-formed rules moreover ends with no line feed.
-/

namespace GrammarRules

namespace Text

variable {c : Char}

theorem getLast?_append_ne {front back : List Char} (hfront : front.getLast? ≠ some c)
    (hback : back.getLast? ≠ some c) : (front ++ back).getLast? ≠ some c := by
  rw [List.getLast?_append]
  cases h : back.getLast? with
  | none => exact hfront
  | some d => rwa [h] at hback

theorem getLast?_intercalate_ne {separator : List Char} {pieces : List (List Char)}
    (hseparator : separator.getLast? ≠ some c) (h : ∀ piece ∈ pieces, piece.getLast? ≠ some c) :
    (separator.intercalate pieces).getLast? ≠ some c := by
  induction pieces with
  | nil => simp
  | cons piece pieces ih =>
    obtain ⟨hpiece, hpieces⟩ := List.forall_mem_cons.mp h
    cases pieces with
    | nil => simpa using hpiece
    | cons next pieces =>
      rw [List.intercalate_cons_cons]
      exact getLast?_append_ne (getLast?_append_ne hpiece hseparator) (ih hpieces)

/-- If the last piece is not empty, what is put together ends as it does. -/
theorem getLast?_intercalate_concat (separator : List Char) (pieces : List (List Char))
    {last : List Char} (hlast : last ≠ []) :
    (separator.intercalate (pieces ++ [last])).getLast? = last.getLast? := by
  induction pieces with
  | nil => simp
  | cons piece pieces ih =>
    obtain ⟨next, rest, hrest⟩ : ∃ next rest, pieces ++ [last] = next :: rest :=
      List.exists_cons_of_ne_nil (by simp)
    rw [List.cons_append, hrest, List.intercalate_cons_cons, List.getLast?_append, ← hrest, ih,
      List.getLast?_eq_some_getLast hlast]
    rfl

end Text

namespace Part

theorem getLast?_ne_of_all_isNotation {c : Char} (h : isNotation c = false) {cs : List Char}
    (hcs : cs.all isNotation) : cs.getLast? ≠ some c :=
  fun hlast => not_mem_of_all_isNotation h hcs (List.mem_of_getLast? hlast)

theorem all_isNotation_glyphChars (c : Option Cardinality) : (glyphChars c).all isNotation := by
  cases c with
  | none => rfl
  | some c => simp [glyphChars, isNotation_glyph]

/-- What is written of a well-formed part ends with a quote, a parenthesis, a bracket, a slash, a
glyph, a blank or a character of a token. -/
theorem getLast?_chars_ne_feed (mode : Mode) (p : Part) (hp : p.WellFormed) :
    (p.chars mode).getLast? ≠ some '\n' := by
  have hfeed : isNotation '\n' = false := by decide
  have hglyphs : ∀ c, (glyphChars c).getLast? ≠ some '\n' := fun c =>
    getLast?_ne_of_all_isNotation hfeed (all_isNotation_glyphChars c)
  induction p with
  | literal text =>
    rw [chars, Text.quotedChars, ← List.cons_append, List.getLast?_concat]
    decide
  | sequence parts c ih =>
    have hparts := wellFormed_sequence_iff.mp hp
    cases c with
    | none =>
      rw [chars, charsOfAll_eq_map]
      refine Text.getLast?_intercalate_ne (by decide) ?_
      exact List.forall_mem_map.mpr fun p hp => ih p hp (hparts p hp)
    | some c =>
      rw [chars, List.append_cons, ← List.cons_append, List.getLast?_concat]
      exact hglyphs (some c)
  | oneOf options c =>
    rw [chars, List.append_cons, ← List.cons_append]
    refine Text.getLast?_append_ne ?_ (hglyphs c)
    rw [← List.cons_append, List.getLast?_concat]
    decide
  | ref name c =>
    refine Text.getLast?_append_ne (getLast?_ne_of_all_isNotation hfeed ?_) (hglyphs c)
    refine List.all_eq_true.mpr fun d hd => ?_
    simp [isNotation, Name.isTokenChar_of_mem_token mode hd]
  | range pattern c =>
    obtain ⟨body, hpattern⟩ := wellFormed_range_iff.mp hp
    refine Text.getLast?_append_ne ?_ (hglyphs c)
    cases mode with
    | gbnf =>
      rw [patternChars, hpattern, ← List.cons_append, List.getLast?_concat]
      decide
    | ebnf =>
      rw [patternChars, ← List.cons_append, List.getLast?_concat]
      decide

end Part

namespace Console

theorem IsSequence.isForeign {w : List Char} (h : IsSequence w) : Part.IsForeign w := by
  obtain ⟨parameters, c, rfl, hparameters, hc⟩ := h
  refine ⟨fun d hd hmem => ?_, ⟨'\x1b', _, rfl, by decide⟩, fun cardinality hlast => ?_⟩
  · have hbounds : Part.bounds.all fun d =>
        d ≠ '\x1b' ∧ d ≠ '[' ∧ !isParameter d ∧ !endsSequence d := by decide
    have hno := List.all_eq_true.mp hbounds d (of_decide_eq_true hd)
    simp only [decide_eq_true_eq, Bool.not_eq_true'] at hno
    obtain ⟨hescape, hbracket, hparameter, hend⟩ := hno
    rcases List.mem_cons.mp hmem with heq | hmem
    · exact hescape heq
    rcases List.mem_cons.mp hmem with heq | hmem
    · exact hbracket heq
    rcases List.mem_append.mp hmem with hmem | hmem
    · rw [hparameters d hmem] at hparameter
      cases hparameter
    · rw [List.mem_singleton.mp hmem, hc] at hend
      cases hend
  · rw [← List.cons_append, ← List.cons_append, List.getLast?_concat, Option.some_inj] at hlast
    rw [hlast] at hc
    cases cardinality <;> exact absurd hc (by decide)

theorem isForeign_of_not_isKept {c : Char} (h : isKept c = false) : Part.IsForeign [c] := by
  rcases isKept_eq_false_iff.mp h with rfl | hcontrol | ⟨hbreak, hne⟩
  · exact Part.isForeign_singleton (by decide) (by decide)
  · simp only [Styled.isControl, decide_eq_true_eq, List.mem_cons, List.not_mem_nil,
      or_false] at hcontrol
    rcases hcontrol with rfl | rfl | rfl | rfl | rfl <;>
      exact Part.isForeign_singleton (by decide) (by decide)
  · simp only [Text.isLineBreak, decide_eq_true_eq, List.mem_cons, List.not_mem_nil,
      or_false] at hbreak
    rcases hbreak.resolve_left hne with rfl | rfl | rfl | rfl | rfl | rfl | rfl | rfl | rfl <;>
      exact Part.isForeign_singleton (by decide) (by decide)

end Console

namespace Registry

open Console

variable {mode : Mode} {rules : List (String × Part)}

theorem getLast?_text_ne_feed (h : ∀ rule ∈ rules, rule.2.WellFormed) :
    ("\n".intercalate (rules.map (line mode))).toList.getLast? ≠ some '\n' := by
  rw [toList_text]
  cases rules using List.reverseRecOn with
  | nil => simp
  | append_singleton rules rule =>
    have hoperator : mode.operator.toList.getLast? = some ' ' := by cases mode <;> decide
    have hne : (line mode rule).toList ≠ [] := by
      intro hnil
      rw [toList_line, List.append_assoc] at hnil
      have := (List.append_eq_nil_iff.mp (List.append_eq_nil_iff.mp hnil).2).1
      rw [this] at hoperator
      cases hoperator
    rw [List.map_append, List.map_singleton, Text.getLast?_intercalate_concat _ _ hne, toList_line]
    refine Text.getLast?_append_ne ?_ (Part.getLast?_chars_ne_feed mode rule.2 (h rule (by simp)))
    rw [List.getLast?_append, hoperator, Option.some_or]
    decide

/-- A control sequence stands in the text of a grammar exactly if it stands in a literal or a
range. -/
theorem holdsSequence_text_iff :
    HoldsSequence ("\n".intercalate (rules.map (line mode))).toList ↔
      ∃ rule ∈ rules, ∃ text ∈ rule.2.texts, HoldsSequence text.toList := by
  constructor
  · rintro ⟨found, hfound, hstands⟩
    obtain ⟨rule, hrule, text, htext, hstands⟩ :=
      (infix_text_iff hfound.isForeign).mp hstands
    exact ⟨rule, hrule, text, htext, found, hfound, hstands⟩
  · rintro ⟨rule, hrule, text, htext, found, hfound, hstands⟩
    exact ⟨found, hfound,
      (infix_text_iff hfound.isForeign).mpr ⟨rule, hrule, text, htext, hstands⟩⟩

/-- All characters of the text of a grammar are kept exactly if those of its literals and ranges
are. -/
theorem forall_isKept_text_iff :
    (∀ c ∈ ("\n".intercalate (rules.map (line mode))).toList, isKept c) ↔
      ∀ rule ∈ rules, ∀ text ∈ rule.2.texts, ∀ c ∈ text.toList, isKept c := by
  have hstands : ∀ c, isKept c = false → (c ∈ ("\n".intercalate (rules.map (line mode))).toList ↔
      ∃ rule ∈ rules, ∃ text ∈ rule.2.texts, c ∈ text.toList) := by
    intro c hc
    simpa only [List.singleton_infix_iff] using infix_text_iff (isForeign_of_not_isKept hc)
  constructor
  · intro h rule hrule text htext c hc
    refine Bool.of_not_eq_false fun hlost => ?_
    rw [h c ((hstands c hlost).mpr ⟨rule, hrule, text, htext, hc⟩)] at hlost
    cases hlost
  · intro h c hc
    refine Bool.of_not_eq_false fun hlost => ?_
    obtain ⟨rule, hrule, text, htext, hc⟩ := (hstands c hlost).mp hc
    rw [h rule hrule text htext c hc] at hlost
    cases hlost

end Registry
end GrammarRules
