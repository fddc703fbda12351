import GrammarRules.Proofs.Grammar.Closed
import GrammarRules.Proofs.Grammar.Lines
import GrammarRules.Proofs.Part.Texts
import GrammarRules.Proofs.Part.WellFormed
import GrammarRules.Proofs.Text.Pieces

/-!
# Words foreign to the notation

A word is foreign to the notation if it holds none of the characters that bound the texts of
literals and ranges, starts with none that is written outside of them, and ends with no glyph. Such a
word stands in the text of a grammar exactly if it stands in one of these texts: it neither reaches
over the end of one nor gets its characters from an escape.
-/

namespace GrammarRules

namespace Text

variable {w : List Char} {mark : Char}

inductive EscapedAs (mark : Char) : List Char → List Char → Prop
  | nil : EscapedAs mark [] []
  | keep (c : Char) {cs cs' : List Char} : EscapedAs mark cs cs' →
      EscapedAs mark (c :: cs) (c :: cs')
  | escape {cs cs' : List Char} : EscapedAs mark cs cs' →
      EscapedAs mark (mark :: cs) ('\\' :: mark :: cs')

theorem escapedAs_escapeQuotes (cs : List Char) : EscapedAs '"' cs (escapeQuotes cs) := by
  induction cs with
  | nil => exact .nil
  | cons c cs ih =>
    rw [escapeQuotes]
    split
    · next hc =>
      rw [hc]
      exact .escape ih
    · exact .keep c ih

theorem escapedAs_escapeSlashesFrom (escaped : Bool) (cs : List Char) :
    EscapedAs '/' cs (escapeSlashesFrom escaped cs) := by
  induction cs generalizing escaped with
  | nil => exact .nil
  | cons c cs ih =>
    simp only [escapeSlashesFrom]
    split
    · next hc =>
      obtain ⟨rfl, -⟩ : c = '/' ∧ escaped = false := by simpa using hc
      exact .escape (ih _)
    · exact .keep c (ih _)

theorem EscapedAs.prefix_iff {cs cs' : List Char} (h : EscapedAs mark cs cs') (hmark : mark ∉ w)
    (hback : '\\' ∉ w) : w <+: cs' ↔ w <+: cs := by
  induction h generalizing w with
  | nil => exact Iff.rfl
  | keep c _ ih =>
    cases w with
    | nil => simp
    | cons d w =>
      rw [List.cons_prefix_cons, List.cons_prefix_cons,
        ih (List.not_mem_of_not_mem_cons hmark) (List.not_mem_of_not_mem_cons hback)]
  | escape =>
    cases w with
    | nil => simp
    | cons d w =>
      rw [List.cons_prefix_cons, List.cons_prefix_cons]
      have hne := (List.ne_and_not_mem_of_not_mem_cons hmark).1
      have hne' := (List.ne_and_not_mem_of_not_mem_cons hback).1
      exact iff_of_false (fun h => hne'.symm h.1) fun h => hne.symm h.1

/-- Escaping neither makes nor breaks a word without the mark and without backslashes. -/
theorem EscapedAs.infix_iff {cs cs' : List Char} (h : EscapedAs mark cs cs') (hmark : mark ∉ w)
    (hback : '\\' ∉ w) (hne : w ≠ []) : w <:+: cs' ↔ w <:+: cs := by
  induction h with
  | nil => exact Iff.rfl
  | keep c h ih =>
    rw [List.infix_cons_iff, List.infix_cons_iff, (h.keep c).prefix_iff hmark hback, ih]
  | escape _ ih =>
    rw [infix_cons_iff_of_not_mem hback hne, infix_cons_iff_of_not_mem hmark hne,
      infix_cons_iff_of_not_mem hmark hne, ih]

end Text

def Part.bounds : List Char := ['"', '\\', '/', ' ', '|', '(', ')', ':', '=', '\n']

def Part.isBound (c : Char) : Bool := c ∈ bounds

/-- A word that is not made up from what is written between and around texts. -/
structure Part.IsForeign (w : List Char) : Prop where
  inside : ∀ c, isBound c → c ∉ w
  head : ∃ c w', w = c :: w' ∧ isNotation c = false
  last : ∀ cardinality : Cardinality, w.getLast? ≠ some cardinality.glyph

namespace Part

variable {w : List Char} {mode : Mode}

theorem IsForeign.ne_nil (h : IsForeign w) : w ≠ [] := by
  obtain ⟨c, w', rfl, -⟩ := h.head
  exact List.cons_ne_nil c w'

theorem isForeign_singleton {c : Char} (hfree : isNotation c = false)
    (hbound : isBound c = false) : IsForeign [c] where
  inside d hd hmem := by
    rw [List.mem_singleton.mp hmem, hbound] at hd
    cases hd
  head := ⟨c, [], rfl, hfree⟩
  last cardinality hlast := by
    rw [List.getLast?_singleton, Option.some_inj] at hlast
    rw [hlast, isNotation_glyph] at hfree
    cases hfree

theorem IsForeign.not_infix_of_all_isNotation (h : IsForeign w) {cs : List Char}
    (hcs : cs.all isNotation) : ¬ w <:+: cs := by
  obtain ⟨c, w', rfl, hc⟩ := h.head
  exact fun hstands => not_mem_of_all_isNotation hc hcs (hstands.mem List.mem_cons_self)

theorem IsForeign.infix_append_glyphChars_iff (h : IsForeign w) {cs : List Char}
    (c : Option Cardinality) : w <:+: cs ++ glyphChars c ↔ w <:+: cs := by
  cases c with
  | none => simp [glyphChars]
  | some c =>
    have hlast : ¬ w <:+ cs ++ [c.glyph] := by
      intro hsuffix
      obtain ⟨front, heq⟩ := hsuffix
      have hglyph := congrArg List.getLast? heq
      rw [List.getLast?_append_of_ne_nil _ h.ne_nil, List.getLast?_concat] at hglyph
      exact h.last c hglyph
    rw [glyphChars, Option.map_some, Option.toList_some, List.infix_concat_iff, or_iff_right hlast]

theorem IsForeign.infix_patternChars_iff (h : IsForeign w) (pattern : String) :
    w <:+: patternChars mode pattern ↔ w <:+: pattern.toList := by
  cases mode with
  | gbnf => exact Iff.rfl
  | ebnf =>
    have hslash : '/' ∉ w := h.inside '/' (by decide)
    rw [patternChars, Text.infix_cons_iff_of_not_mem hslash h.ne_nil,
      Text.infix_append_cons_iff hslash h.ne_nil, List.infix_nil, or_iff_left h.ne_nil]
    exact (Text.escapedAs_escapeSlashesFrom false _).infix_iff hslash (h.inside '\\' (by decide))
      h.ne_nil

theorem IsForeign.infix_quotedChars_iff (h : IsForeign w) (cs : List Char) :
    w <:+: Text.quotedChars cs ↔ w <:+: cs := by
  have hquote : '"' ∉ w := h.inside '"' (by decide)
  rw [Text.quotedChars, Text.infix_cons_iff_of_not_mem hquote h.ne_nil,
    Text.infix_append_cons_iff hquote h.ne_nil, List.infix_nil, or_iff_left h.ne_nil]
  exact (Text.escapedAs_escapeQuotes cs).infix_iff hquote (h.inside '\\' (by decide)) h.ne_nil

theorem IsForeign.not_infix_token (h : IsForeign w) (name : String) :
    ¬ w <:+: (Name.token mode name).toList := by
  refine h.not_infix_of_all_isNotation (List.all_eq_true.mpr fun d hd => ?_)
  simp [isNotation, Name.isTokenChar_of_mem_token mode hd]

theorem IsForeign.infix_charsOfAll_iff (h : IsForeign w) {separator : List Char}
    {parts : List Part} (hne : separator ≠ []) (hbounds : ∀ c ∈ separator, isBound c)
    (hparts : ∀ p ∈ parts, w <:+: p.chars mode ↔ ∃ text ∈ p.texts, w <:+: text.toList) :
    w <:+: separator.intercalate (charsOfAll mode parts) ↔
      ∃ text ∈ textsOfAll parts, w <:+: text.toList := by
  rw [Text.infix_intercalate_iff h.ne_nil hne fun c hc => h.inside c (hbounds c hc),
    charsOfAll_eq_map, textsOfAll_eq_flatMap]
  simp only [List.mem_map, exists_exists_and_eq_and, List.mem_flatMap]
  constructor
  · rintro ⟨p, hp, hword⟩
    obtain ⟨text, htext, hword⟩ := (hparts p hp).mp hword
    exact ⟨text, ⟨p, hp, htext⟩, hword⟩
  · rintro ⟨text, ⟨p, hp, htext⟩, hword⟩
    exact ⟨p, hp, (hparts p hp).mpr ⟨text, htext, hword⟩⟩

/-- A foreign word stands in a written part exactly if it stands in one of the texts. -/
theorem IsForeign.infix_chars_iff (h : IsForeign w) (p : Part) :
    w <:+: p.chars mode ↔ ∃ text ∈ p.texts, w <:+: text.toList := by
  have hopen : '(' ∉ w := h.inside '(' (by decide)
  have hclose : ')' ∉ w := h.inside ')' (by decide)
  induction p with
  | literal text => simp [chars, texts, h.infix_quotedChars_iff]
  | sequence parts c ih =>
    have hinside := h.infix_charsOfAll_iff (List.cons_ne_nil ' ' []) (by simp [isBound, bounds]) ih
    cases c with
    | none => exact hinside
    | some c =>
      have hglyph : ¬ w <:+: [c.glyph] :=
        h.not_infix_of_all_isNotation (by simp [isNotation_glyph])
      rw [chars, Text.infix_cons_iff_of_not_mem hopen h.ne_nil,
        Text.infix_append_cons_iff hclose h.ne_nil, or_iff_left hglyph]
      exact hinside
  | oneOf options c ih =>
    have hglyphs : ¬ w <:+: glyphChars c := by
      rw [← List.nil_append (glyphChars c), h.infix_append_glyphChars_iff, List.infix_nil]
      exact h.ne_nil
    rw [chars, Text.infix_cons_iff_of_not_mem hopen h.ne_nil,
      Text.infix_append_cons_iff hclose h.ne_nil, or_iff_left hglyphs]
    exact h.infix_charsOfAll_iff (List.cons_ne_nil ' ' ['|', ' ']) (by simp [isBound, bounds]) ih
  | ref name c =>
    rw [chars, h.infix_append_glyphChars_iff]
    exact iff_of_false (h.not_infix_token name) (by simp [texts])
  | range pattern c =>
    rw [chars, h.infix_append_glyphChars_iff, h.infix_patternChars_iff]
    simp [texts]

end Part

namespace Registry

variable {w : List Char} {mode : Mode} {rules : List (String × Part)}

theorem infix_line_iff (h : Part.IsForeign w) (rule : String × Part) :
    w <:+: (line mode rule).toList ↔ ∃ text ∈ rule.2.texts, w <:+: text.toList := by
  have hoperator : mode.operator.toList ≠ [] := by cases mode <;> decide
  have hbounds : mode.operator.toList.all Part.isBound := by cases mode <;> decide
  rw [toList_line, Text.infix_append_append_iff h.ne_nil hoperator
      fun c hc => h.inside c (List.all_eq_true.mp hbounds c hc),
    or_iff_right (h.not_infix_token rule.1), h.infix_chars_iff]

/-- A foreign word stands in the text of a grammar exactly if it stands in a literal or a range. -/
theorem infix_text_iff (h : Part.IsForeign w) :
    w <:+: ("\n".intercalate (rules.map (line mode))).toList ↔
      ∃ rule ∈ rules, ∃ text ∈ rule.2.texts, w <:+: text.toList := by
  have hfeed : ∀ c ∈ ['\n'], c ∉ w := by
    intro c hc
    rw [List.mem_singleton.mp hc]
    exact h.inside '\n' (by decide)
  rw [toList_text, Text.infix_intercalate_iff h.ne_nil (by simp) hfeed]
  simp only [List.mem_map, exists_exists_and_eq_and, infix_line_iff h]

end Registry
end GrammarRules
