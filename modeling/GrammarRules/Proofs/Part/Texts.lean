import GrammarRules.Proofs.Part.Readable

/-!
# Texts inside written rules

Writing a rule adds quotes, escapes, separators, parentheses, glyphs and tokens to the texts of its
literals and ranges, and none of these texts is lost. Any other character stands in the written rule
exactly as often as it stands in those texts.
-/

namespace GrammarRules

namespace Text

variable {c : Char}

theorem count_escapeQuotes (h : c ≠ '\\') (cs : List Char) :
    (escapeQuotes cs).count c = cs.count c := by
  induction cs with
  | nil => rfl
  | cons d cs ih =>
    rw [escapeQuotes]
    split
    · rw [List.count_cons_of_ne h.symm, List.count_cons, List.count_cons, ih]
    · rw [List.count_cons, List.count_cons, ih]

theorem count_quotedChars (hquote : c ≠ '"') (hback : c ≠ '\\') (cs : List Char) :
    (quotedChars cs).count c = cs.count c := by
  rw [quotedChars, List.count_cons_of_ne hquote.symm, List.count_append, count_escapeQuotes hback,
    List.count_singleton, beq_false_of_ne hquote.symm]
  rfl

theorem count_escapeSlashesFrom (h : c ≠ '\\') (escaped : Bool) (cs : List Char) :
    (escapeSlashesFrom escaped cs).count c = cs.count c := by
  induction cs generalizing escaped with
  | nil => rfl
  | cons d cs ih =>
    simp only [escapeSlashesFrom]
    split
    · rw [List.count_cons_of_ne h.symm, List.count_cons, List.count_cons, ih]
    · rw [List.count_cons, List.count_cons, ih]

theorem count_intercalate (c : Char) (separator : List Char) (pieces : List (List Char)) :
    (separator.intercalate pieces).count c =
      pieces.flatten.count c + (pieces.length - 1) * separator.count c := by
  induction pieces with
  | nil => simp
  | cons piece pieces ih =>
    cases pieces with
    | nil => simp
    | cons next rest =>
      simp only [List.intercalate_cons_cons, List.count_append, ih, List.flatten_cons,
        List.length_cons, Nat.add_sub_cancel]
      ring

end Text

namespace Part

mutual

def texts : Part → List String
  | .literal text => [text]
  | .sequence parts _ => textsOfAll parts
  | .oneOf options _ => textsOfAll options
  | .ref _ _ => []
  | .range pattern _ => [pattern]

def textsOfAll : List Part → List String
  | [] => []
  | p :: ps => p.texts ++ textsOfAll ps

end

theorem textsOfAll_eq_flatMap (parts : List Part) : textsOfAll parts = parts.flatMap texts := by
  induction parts with
  | nil => rfl
  | cons p ps ih => simp [textsOfAll, ih]

/-- The characters that writing a rule adds to its texts. -/
def isNotation (c : Char) : Bool :=
  Name.isTokenChar c || c ∈ ['"', '\\', '/', ' ', '|', '(', ')', '*', '+', '?']

def countIn (c : Char) (texts : List String) : Nat := (texts.flatMap String.toList).count c

variable {c : Char} {mode : Mode}

theorem countIn_flatMap {α : Type} (f : α → List String) (items : List α) :
    countIn c (items.flatMap f) = (items.map fun item => countIn c (f item)).sum := by
  rw [countIn, List.flatMap_assoc, List.count_flatMap]
  rfl

theorem countIn_eq_zero_iff {texts : List String} :
    countIn c texts = 0 ↔ ∀ text ∈ texts, c ∉ text.toList := by
  rw [countIn, List.count_eq_zero, List.mem_flatMap]
  simp

theorem not_mem_of_all_isNotation (h : isNotation c = false) {cs : List Char}
    (hcs : cs.all isNotation) : c ∉ cs := by
  intro hmem
  rw [List.all_eq_true.mp hcs c hmem] at h
  cases h

theorem ne_of_isNotation (h : isNotation c = false) {d : Char} (hd : isNotation d) : d ≠ c := by
  rintro rfl
  rw [hd] at h
  cases h

theorem count_token (h : isNotation c = false) (name : String) :
    (Name.token mode name).toList.count c = 0 := by
  refine List.count_eq_zero.mpr (not_mem_of_all_isNotation h (List.all_eq_true.mpr fun d hd => ?_))
  simp [isNotation, Name.isTokenChar_of_mem_token mode hd]

theorem isNotation_glyph (cardinality : Cardinality) : isNotation cardinality.glyph := by
  cases cardinality <;> decide

theorem count_glyphChars (h : isNotation c = false) (cardinality : Option Cardinality) :
    (glyphChars cardinality).count c = 0 := by
  cases cardinality with
  | none => rfl
  | some cardinality => exact List.count_cons_of_ne (ne_of_isNotation h (isNotation_glyph _))

theorem count_patternChars (h : isNotation c = false) (pattern : String) :
    (patternChars mode pattern).count c = pattern.toList.count c := by
  cases mode with
  | gbnf => rfl
  | ebnf =>
    have hslash : '/' ≠ c := ne_of_isNotation h (by decide)
    have hback : '\\' ≠ c := ne_of_isNotation h (by decide)
    rw [patternChars, List.count_cons_of_ne hslash, List.count_append,
      Text.count_escapeSlashesFrom hback.symm, List.count_cons_of_ne hslash, List.count_nil,
      Nat.add_zero]

theorem count_intercalate_charsOfAll {separator : List Char} (h : c ∉ separator)
    {parts : List Part} (hparts : ∀ p ∈ parts, (p.chars mode).count c = countIn c p.texts) :
    (separator.intercalate (charsOfAll mode parts)).count c = countIn c (textsOfAll parts) := by
  rw [Text.count_intercalate, List.count_eq_zero_of_not_mem h, Nat.mul_zero, Nat.add_zero,
    charsOfAll_eq_map, ← List.flatMap_def, List.count_flatMap, textsOfAll_eq_flatMap,
    countIn_flatMap]
  exact congrArg List.sum (List.map_congr_left hparts)

/-- Outside the notation, what stands in a written rule stands in its literals and ranges. -/
theorem count_chars (h : isNotation c = false) (p : Part) :
    (p.chars mode).count c = countIn c p.texts := by
  have hopen : '(' ≠ c := ne_of_isNotation h (by decide)
  have hclose : ')' ≠ c := ne_of_isNotation h (by decide)
  induction p with
  | literal text =>
    have hquote : '"' ≠ c := ne_of_isNotation h (by decide)
    have hback : '\\' ≠ c := ne_of_isNotation h (by decide)
    rw [chars, Text.count_quotedChars hquote.symm hback.symm, texts, countIn,
      List.flatMap_singleton]
  | sequence parts cardinality ih =>
    have hblank : c ∉ [' '] := not_mem_of_all_isNotation h (by decide)
    have hinside := count_intercalate_charsOfAll hblank ih
    cases cardinality with
    | none => exact hinside
    | some cardinality =>
      have hglyph := ne_of_isNotation h (isNotation_glyph cardinality)
      rw [chars, texts, List.count_cons_of_ne hopen, List.count_append, hinside,
        List.count_cons_of_ne hclose, List.count_cons_of_ne hglyph]
      rfl
  | oneOf options cardinality ih =>
    have hbar : c ∉ [' ', '|', ' '] := not_mem_of_all_isNotation h (by decide)
    rw [chars, texts, List.count_cons_of_ne hopen, List.count_append,
      count_intercalate_charsOfAll hbar ih, List.count_cons_of_ne hclose, count_glyphChars h,
      Nat.add_zero]
  | ref name cardinality =>
    rw [chars, List.count_append, count_token h, count_glyphChars h]
    rfl
  | range pattern cardinality =>
    rw [chars, List.count_append, count_patternChars h, count_glyphChars h, texts, countIn,
      List.flatMap_singleton, Nat.add_zero]

end Part
end GrammarRules
