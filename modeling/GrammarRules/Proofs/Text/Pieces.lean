import Mathlib
import GrammarRules.Text.Lines

/-!
# Pieces of texts

Texts are put together from pieces with a separator and taken apart again, at one character or at
the line breaks of Unicode. A word without the characters of the separator stands in the whole exactly
if it stands in one of the pieces. The lines of a text hold all of it but the line breaks; put together
with line feeds they are the text itself if it has no other line break and does not end with one.
-/

namespace GrammarRules

namespace Text

theorem not_mem_of_mem_splitOn {c : Char} {cs piece : List Char} (h : piece ∈ cs.splitOn c) :
    c ∉ piece := by
  induction cs generalizing piece with
  | nil =>
    rw [List.splitOn_nil, List.mem_singleton] at h
    simp [h]
  | cons d cs ih =>
    rw [List.splitOn_cons_eq_if_modifyHead] at h
    split at h
    · rcases List.mem_cons.mp h with rfl | h
      · simp
      · exact ih h
    · next hd =>
      obtain ⟨first, rest, hpieces⟩ := List.exists_cons_of_ne_nil (List.splitOn_ne_nil c cs)
      rw [hpieces] at h ih
      rcases List.mem_cons.mp h with rfl | h
      · have hne : d ≠ c := by simpa using hd
        simp [hne.symm, ih List.mem_cons_self]
      · exact ih (List.mem_cons_of_mem _ h)

theorem infix_intercalate {separator cs : List Char} {pieces : List (List Char)}
    (h : cs ∈ pieces) : cs <:+: separator.intercalate pieces := by
  induction pieces with
  | nil => cases h
  | cons piece pieces ih =>
    cases pieces with
    | nil => simp [List.mem_singleton.mp h]
    | cons next pieces =>
      rw [List.intercalate_cons_cons]
      rcases List.mem_cons.mp h with rfl | h
      · rw [List.append_assoc]
        exact (List.prefix_append _ _).isInfix
      · exact (ih h).trans (List.suffix_append _ _).isInfix

theorem mem_of_mem_splitOn {c d : Char} {cs piece : List Char} (h : piece ∈ cs.splitOn c)
    (hd : d ∈ piece) : d ∈ cs := by
  have hstands := @infix_intercalate [c] _ _ h
  rw [List.intercalate_splitOn] at hstands
  exact hstands.mem hd

/-- A word without the character at a place does not reach over that place. -/
theorem prefix_append_cons_iff {w front back : List Char} {c : Char} (hc : c ∉ w) :
    w <+: front ++ c :: back ↔ w <+: front := by
  induction front generalizing w with
  | nil =>
    cases w with
    | nil => simp
    | cons d w =>
      have hne := (List.ne_and_not_mem_of_not_mem_cons hc).1
      simp [List.cons_prefix_cons, hne.symm]
  | cons e front ih =>
    cases w with
    | nil => simp
    | cons d w =>
      rw [List.cons_append, List.cons_prefix_cons, List.cons_prefix_cons,
        ih (List.not_mem_of_not_mem_cons hc)]

theorem infix_cons_iff_of_not_mem {w back : List Char} {c : Char} (hc : c ∉ w) (hne : w ≠ []) :
    w <:+: c :: back ↔ w <:+: back := by
  have hprefix : ¬ w <+: c :: back := by
    rw [← List.nil_append (c :: back), prefix_append_cons_iff hc, List.prefix_nil]
    exact hne
  rw [List.infix_cons_iff, or_iff_right hprefix]

theorem infix_append_cons_iff {w front back : List Char} {c : Char} (hc : c ∉ w) (hne : w ≠ []) :
    w <:+: front ++ c :: back ↔ w <:+: front ∨ w <:+: back := by
  induction front with
  | nil => rw [List.nil_append, infix_cons_iff_of_not_mem hc hne, List.infix_nil, or_iff_right hne]
  | cons e front ih =>
    rw [List.cons_append, List.infix_cons_iff, List.infix_cons_iff, ih, ← List.cons_append,
      prefix_append_cons_iff hc, or_assoc]

theorem infix_append_append_iff {w front separator back : List Char} (hne : w ≠ [])
    (hseparator : separator ≠ []) (h : ∀ c ∈ separator, c ∉ w) :
    w <:+: front ++ separator ++ back ↔ w <:+: front ∨ w <:+: back := by
  have hback : ∀ marks : List Char, (∀ c ∈ marks, c ∉ w) →
      (w <:+: marks ++ back ↔ w <:+: back) := by
    intro marks hmarks
    induction marks with
    | nil => exact Iff.rfl
    | cons c marks ih =>
      obtain ⟨hc, hmarks⟩ := List.forall_mem_cons.mp hmarks
      rw [List.cons_append, infix_cons_iff_of_not_mem hc hne, ih hmarks]
  cases separator with
  | nil => exact absurd rfl hseparator
  | cons c separator =>
    obtain ⟨hc, hmarks⟩ := List.forall_mem_cons.mp h
    rw [List.append_assoc, List.cons_append, infix_append_cons_iff hc hne, hback separator hmarks]

/-- A word without the characters of the separator stands in one of the pieces if it stands in the
whole. -/
theorem infix_intercalate_iff {w separator : List Char} {pieces : List (List Char)} (hne : w ≠ [])
    (hseparator : separator ≠ []) (h : ∀ c ∈ separator, c ∉ w) :
    w <:+: separator.intercalate pieces ↔ ∃ piece ∈ pieces, w <:+: piece := by
  induction pieces with
  | nil => simpa using hne
  | cons piece pieces ih =>
    cases pieces with
    | nil => simp
    | cons next pieces =>
      rw [List.intercalate_cons_cons, infix_append_append_iff hne hseparator h, ih]
      exact (List.exists_mem_cons_iff _ piece (next :: pieces)).symm

theorem mem_intercalate {α : Type} {separator : List α} {pieces : List (List α)} {c : α}
    (h : c ∈ separator.intercalate pieces) : c ∈ separator ∨ ∃ piece ∈ pieces, c ∈ piece := by
  induction pieces with
  | nil => cases h
  | cons piece pieces ih =>
    cases pieces with
    | nil => exact Or.inr ⟨piece, List.mem_cons_self, by simpa using h⟩
    | cons next pieces =>
      rw [List.intercalate_cons_cons, List.mem_append, List.mem_append] at h
      rcases h with (h | h) | h
      · exact Or.inr ⟨piece, List.mem_cons_self, h⟩
      · exact Or.inl h
      · exact (ih h).imp_right fun ⟨found, hfound, hc⟩ => ⟨found, List.mem_cons_of_mem _ hfound, hc⟩

theorem intercalate_cons {α : Type} (c : α) (piece : List α) (pieces : List (List α)) :
    [c].intercalate (piece :: pieces) = piece ++ pieces.flatMap fun piece => c :: piece := by
  induction pieces generalizing piece with
  | nil => simp
  | cons next pieces ih =>
    rw [List.intercalate_cons_cons, ih, List.append_assoc, List.flatMap_cons]
    rfl

theorem flatten_startLine (c : Char) (lines : List (List Char)) :
    (startLine c lines).flatten = c :: lines.flatten := by
  cases lines <;> rfl

theorem intercalate_startLine (separator : List Char) (c : Char) (lines : List (List Char)) :
    separator.intercalate (startLine c lines) = c :: separator.intercalate lines := by
  cases lines with
  | nil => simp [startLine]
  | cons line lines => cases lines <;> simp [startLine, List.intercalate_cons_cons]

/-- The lines of a text hold all of it but the line breaks. -/
theorem flatten_lines (cs : List Char) :
    (lines cs).flatten = cs.filter fun c => !isLineBreak c := by
  have hreturn : isLineBreak '\r' := by decide
  have hfeed : isLineBreak '\n' := by decide
  fun_induction lines cs with
  | case1 => rfl
  | case2 cs ih => simp [hreturn, hfeed, ih]
  | case3 c cs _ hc ih => simp [hc, ih]
  | case4 c cs _ hc ih => simp [flatten_startLine, hc, ih]

theorem lines_ne_nil {cs : List Char} (h : cs ≠ []) : lines cs ≠ [] := by
  fun_cases lines cs with
  | case1 => exact absurd rfl h
  | case2 cs => simp
  | case3 c cs => simp
  | case4 c cs => cases lines cs <;> simp [startLine]

theorem lines_cons_of_not_isLineBreak {c : Char} (h : isLineBreak c = false) (cs : List Char) :
    lines (c :: cs) = startLine c (lines cs) := by
  rw [lines, h]
  · rfl
  · rintro cs rfl -
    exact absurd h (by decide)

theorem lines_append_feed {piece : List Char} (h : ∀ c ∈ piece, isLineBreak c = false)
    (cs : List Char) : lines (piece ++ '\n' :: cs) = piece :: lines cs := by
  induction piece with
  | nil => simp [lines, isLineBreak]
  | cons c piece ih =>
    obtain ⟨hc, hpiece⟩ := List.forall_mem_cons.mp h
    rw [List.cons_append, lines_cons_of_not_isLineBreak hc, ih hpiece]
    rfl

theorem lines_of_forall_not_isLineBreak {piece : List Char} (hne : piece ≠ [])
    (h : ∀ c ∈ piece, isLineBreak c = false) : lines piece = [piece] := by
  induction piece with
  | nil => exact absurd rfl hne
  | cons c piece ih =>
    obtain ⟨hc, hpiece⟩ := List.forall_mem_cons.mp h
    rw [lines_cons_of_not_isLineBreak hc]
    cases piece with
    | nil => rfl
    | cons d piece =>
      rw [ih (List.cons_ne_nil d piece) hpiece]
      rfl

/-- Pieces without line breaks are the lines of what line feeds put together from them. -/
theorem lines_intercalate {pieces : List (List Char)} (hne : ∀ piece ∈ pieces, piece ≠ [])
    (h : ∀ piece ∈ pieces, ∀ c ∈ piece, isLineBreak c = false) :
    lines (['\n'].intercalate pieces) = pieces := by
  induction pieces with
  | nil => rfl
  | cons piece pieces ih =>
    obtain ⟨hpiece, hpieces⟩ := List.forall_mem_cons.mp hne
    obtain ⟨hfirst, hrest⟩ := List.forall_mem_cons.mp h
    cases pieces with
    | nil =>
      rw [List.intercalate_singleton]
      exact lines_of_forall_not_isLineBreak hpiece hfirst
    | cons next pieces =>
      rw [List.intercalate_cons_cons, List.append_assoc, List.singleton_append,
        lines_append_feed hfirst, ih hpieces hrest]

/-- Where the line feed is the only line break, the lines put together are the text but for a line
feed at its end. -/
theorem intercalate_lines {cs : List Char} (h : ∀ c ∈ cs, isLineBreak c → c = '\n') :
    ['\n'].intercalate (lines cs) ++ (if cs.getLast? = some '\n' then ['\n'] else []) = cs := by
  fun_induction lines cs with
  | case1 => rfl
  | case2 cs ih => exact absurd (h '\r' List.mem_cons_self (by decide)) (by decide)
  | case3 c cs _ hc ih =>
    obtain rfl := h c List.mem_cons_self hc
    cases cs with
    | nil => rfl
    | cons d cs =>
      have hrest := ih fun c hc => h c (List.mem_cons_of_mem _ hc)
      obtain ⟨line, rest, hlines⟩ :=
        List.exists_cons_of_ne_nil (lines_ne_nil (List.cons_ne_nil d cs))
      rw [hlines] at hrest ⊢
      rw [List.intercalate_cons_cons, List.getLast?_cons_cons, List.nil_append, List.append_assoc,
        hrest, List.singleton_append]
  | case4 c cs _ hc ih =>
    have hne : c ≠ '\n' := by
      rintro rfl
      exact hc (by decide)
    have hlast : (c :: cs).getLast? = some '\n' ↔ cs.getLast? = some '\n' := by
      cases cs with
      | nil => simpa using hne
      | cons d cs => rw [List.getLast?_cons_cons]
    simp only [intercalate_startLine, hlast, List.cons_append,
      ih fun c hc => h c (List.mem_cons_of_mem _ hc)]

end Text

end GrammarRules
