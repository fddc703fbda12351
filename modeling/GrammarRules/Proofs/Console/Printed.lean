import GrammarRules.Console
import GrammarRules.Proofs.Text.Pieces

/-!
# Printed texts

Printing leaves out control characters and puts blanks for tabs, so that the characters of a text
are printed as they are exactly if none of them is altered. A highlighted grammar is moreover taken
apart at every line break of Unicode and put together with line feeds, and a line feed at its end is
lost.
-/

namespace GrammarRules

namespace Styled

theorem visible_append (cs cs' : List Char) : visible (cs ++ cs') = visible cs ++ visible cs' :=
  List.filter_append ..

theorem visible_eq_self_iff {cs : List Char} :
    visible cs = cs ↔ ∀ c ∈ cs, isControl c = false := by
  rw [visible, List.filter_eq_self]
  simp only [Bool.not_eq_true']

theorem chars_append (t : Styled) (piece : List Char) (style : Style) :
    (t.append piece style).chars = t.chars ++ visible piece := by
  rw [append]
  split
  · next hempty =>
    rw [List.isEmpty_iff.mp hempty]
    exact (List.append_nil _).symm
  · rfl

end Styled

namespace Highlight

open Styled

theorem cut?_eq_some_append {mark cs before after : List Char}
    (h : cut? mark cs = some (before, after)) : cs = before ++ (mark ++ after) := by
  induction cs generalizing before with
  | nil =>
    rw [cut?] at h
    split at h
    · next hempty =>
      cases h
      rw [List.isEmpty_iff.mp hempty]
      rfl
    · cases h
  | cons c cs ih =>
    rw [cut?] at h
    split at h
    · next hprefix =>
      cases h
      exact (List.prefix_iff_eq_append.mp (List.isPrefixOf_iff_prefix.mp hprefix)).symm
    · obtain ⟨⟨before', after'⟩, hcut, heq⟩ := Option.map_eq_some_iff.mp h
      cases heq
      rw [List.cons_append, ← ih hcut]

theorem chars_line (mode : Mode) (t : Styled) (cs : List Char) :
    (line mode t cs).chars = t.chars ++ visible cs := by
  simp only [line]
  split
  · exact chars_append ..
  · next name expression hcut =>
    simp only [chars_append, List.append_assoc, ← visible_append]
    rw [cut?_eq_some_append hcut]

theorem chars_linesAfter (mode : Mode) (t : Styled) (lines : List (List Char)) :
    (linesAfter mode t lines).chars = t.chars ++ lines.flatMap fun cs => '\n' :: visible cs := by
  induction lines generalizing t with
  | nil => exact (List.append_nil _).symm
  | cons cs lines ih =>
    have hnext : (linesAfter mode t (cs :: lines)).chars =
        (linesAfter mode (line mode t.newline cs) lines).chars := rfl
    rw [hnext, ih, chars_line, newline, List.flatMap_cons]
    simp only [List.append_assoc, List.cons_append, List.nil_append]

/-- The characters of a highlighted grammar are those of its lines, put together with line feeds. -/
theorem chars_ofLines (mode : Mode) (lines : List (List Char)) :
    (ofLines mode lines).chars = ['\n'].intercalate (lines.map visible) := by
  cases lines with
  | nil => rfl
  | cons cs lines =>
    rw [ofLines, chars_linesAfter, chars_line, List.map_cons, Text.intercalate_cons,
      List.flatMap_map]
    rfl

end Highlight

namespace Console

open Styled

/-- The characters that are printed as something else, or not at all. -/
def isAltered (c : Char) : Bool := c = '\t' || isControl c

theorem expandTabs_of_not_mem {cs : List Char} (h : '\t' ∉ cs) : expandTabs cs = cs := by
  have hlines : ∀ line ∈ cs.splitOn '\n', expandLine line = line := by
    intro line hline
    have htab : '\t' ∉ line := fun hmem => h (Text.mem_of_mem_splitOn hline hmem)
    rw [expandLine, List.splitOn_eq_singleton htab, joinPieces]
  rw [expandTabs, List.map_congr_left hlines, List.map_id', List.intercalate_splitOn]

theorem mem_joinPieces {pieces : List (List Char)} {c : Char} (h : c ∈ joinPieces pieces) :
    c = ' ' ∨ ∃ piece ∈ pieces, c ∈ piece := by
  fun_induction joinPieces pieces with
  | case1 => cases h
  | case2 piece => exact Or.inr ⟨piece, List.mem_singleton_self _, h⟩
  | case3 piece pieces _ ih =>
    rcases List.mem_append.mp h with h | h
    · rcases List.mem_append.mp h with h | h
      · exact Or.inr ⟨piece, List.mem_cons_self, h⟩
      · rcases List.mem_cons.mp h with h | h
        · exact Or.inl h
        · exact Or.inl (List.eq_of_mem_replicate h)
    · exact (ih h).imp_right fun ⟨found, hfound, hc⟩ => ⟨found, List.mem_cons_of_mem _ hfound, hc⟩

/-- Expanding tabs takes them out and adds nothing but blanks. -/
theorem mem_expandTabs {cs : List Char} {c : Char} (h : c ∈ expandTabs cs) :
    c = ' ' ∨ c = '\n' ∨ c ∈ cs ∧ c ≠ '\t' := by
  rcases Text.mem_intercalate h with h | ⟨piece, hpiece, h⟩
  · exact Or.inr (Or.inl (List.mem_singleton.mp h))
  · obtain ⟨line, hline, rfl⟩ := List.mem_map.mp hpiece
    rcases mem_joinPieces h with h | ⟨part, hpart, h⟩
    · exact Or.inl h
    · have hmem := Text.mem_of_mem_splitOn hline (Text.mem_of_mem_splitOn hpart h)
      exact Or.inr (Or.inr ⟨hmem, fun htab => Text.not_mem_of_mem_splitOn hpart (htab ▸ h)⟩)

/-- What is printed of a text holds no character that would be altered. -/
theorem isAltered_of_mem_printed {cs : List Char} {c : Char}
    (h : c ∈ expandTabs (visible cs)) : isAltered c = false := by
  rcases mem_expandTabs h with rfl | rfl | ⟨hmem, htab⟩
  · decide
  · decide
  · have hcontrol := (List.mem_filter.mp hmem).2
    rw [isAltered, decide_eq_false htab, Bool.false_or]
    simpa using hcontrol

/-- Printing keeps the characters of a text exactly if none of them is altered. -/
theorem expandTabs_visible_eq_self_iff {cs : List Char} :
    expandTabs (visible cs) = cs ↔ ∀ c ∈ cs, isAltered c = false := by
  constructor
  · intro h c hc
    exact isAltered_of_mem_printed (h.symm ▸ hc)
  · intro h
    have hvisible : visible cs = cs :=
      visible_eq_self_iff.mpr fun c hc => (Bool.or_eq_false_iff.mp (h c hc)).2
    rw [hvisible]
    exact expandTabs_of_not_mem fun hmem => absurd (h '\t' hmem) (by decide)

theorem ofList_concat_feed_eq_iff {cs : List Char} {text : String} :
    String.ofList (cs ++ ['\n']) = text ++ "\n" ↔ cs = text.toList := by
  constructor
  · intro h
    have hchars := congrArg String.toList h
    rw [String.toList_ofList, String.toList_append] at hchars
    exact List.append_cancel_right hchars
  · rintro rfl
    rw [String.ofList_append, String.ofList_toList]

/-- The characters with which a highlighted grammar is printed as it is. -/
def isKept (c : Char) : Bool := !isAltered c && (c = '\n' || !Text.isLineBreak c)

theorem isKept_iff {c : Char} :
    isKept c ↔ isAltered c = false ∧ (Text.isLineBreak c → c = '\n') := by
  rw [isKept, Bool.and_eq_true, Bool.not_eq_true', Bool.or_eq_true, decide_eq_true_iff,
    Bool.not_eq_true']
  cases Text.isLineBreak c <;> simp

theorem isKept_eq_false_iff {c : Char} : isKept c = false ↔
    c = '\t' ∨ isControl c ∨ Text.isLineBreak c ∧ c ≠ '\n' := by
  rw [isKept, isAltered, Bool.and_eq_false_iff, Bool.not_eq_false', Bool.or_eq_true,
    decide_eq_true_iff, or_assoc, Bool.or_eq_false_iff, decide_eq_false_iff_not,
    Bool.not_eq_false', and_comm]

/-- Line feeds apart, what is left of the lines of a text once control characters are taken out. -/
theorem mem_intercalate_visible_lines {cs : List Char} {c : Char}
    (h : c ∈ ['\n'].intercalate ((Text.lines cs).map visible)) :
    c = '\n' ∨ c ∈ cs ∧ Text.isLineBreak c = false ∧ isControl c = false := by
  rcases Text.mem_intercalate h with h | ⟨piece, hpiece, h⟩
  · exact Or.inl (List.mem_singleton.mp h)
  · obtain ⟨line, hline, rfl⟩ := List.mem_map.mp hpiece
    obtain ⟨hc, hcontrol⟩ := List.mem_filter.mp h
    have hmem : c ∈ (Text.lines cs).flatten := List.mem_flatten.mpr ⟨line, hline, hc⟩
    rw [Text.flatten_lines, List.mem_filter] at hmem
    exact Or.inr ⟨hmem.1, by simpa using hmem.2, by simpa using hcontrol⟩

theorem intercalate_visible_lines {cs : List Char} (h : ∀ c ∈ cs, isKept c) :
    ['\n'].intercalate ((Text.lines cs).map visible) ++
      (if cs.getLast? = some '\n' then ['\n'] else []) = cs := by
  have hvisible : ∀ line ∈ Text.lines cs, visible line = line := by
    intro line hline
    refine visible_eq_self_iff.mpr fun c hc => ?_
    have hmem : c ∈ (Text.lines cs).flatten := List.mem_flatten.mpr ⟨line, hline, hc⟩
    rw [Text.flatten_lines] at hmem
    have hkept := (isKept_iff.mp (h c (List.mem_of_mem_filter hmem))).1
    exact (Bool.or_eq_false_iff.mp hkept).2
  rw [List.map_congr_left hvisible, List.map_id']
  exact Text.intercalate_lines fun c hc => (isKept_iff.mp (h c hc)).2

/-- The lines of a text are printed as they are but for control characters and tabs. -/
theorem expandTabs_visible_intercalate_lines {cs : List Char} (htab : '\t' ∉ cs) :
    expandTabs (visible (['\n'].intercalate ((Text.lines cs).map visible))) =
      ['\n'].intercalate ((Text.lines cs).map visible) := by
  refine expandTabs_visible_eq_self_iff.mpr fun c hc => ?_
  rw [isAltered, Bool.or_eq_false_iff, decide_eq_false_iff_not]
  rcases mem_intercalate_visible_lines hc with rfl | ⟨hmem, -, hcontrol⟩
  · decide
  · exact ⟨fun heq => htab (heq ▸ hmem), hcontrol⟩

/-- What is printed of the lines of a text holds no character that is not kept. -/
theorem isKept_of_mem_printed_lines {cs : List Char} {c : Char}
    (h : c ∈ expandTabs (visible (['\n'].intercalate ((Text.lines cs).map visible)))) :
    isKept c := by
  refine isKept_iff.mpr ⟨isAltered_of_mem_printed h, fun hbreak => ?_⟩
  rcases mem_expandTabs h with rfl | hfeed | ⟨hmem, -⟩
  · exact absurd hbreak (by decide)
  · exact hfeed
  · rcases mem_intercalate_visible_lines (List.mem_of_mem_filter hmem) with hfeed | ⟨-, hnone, -⟩
    · exact hfeed
    · exact absurd hbreak (by simp [hnone])

end Console
end GrammarRules
