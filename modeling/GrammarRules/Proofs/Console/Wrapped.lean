import GrammarRules.Proofs.Console.Printed
import GrammarRules.Proofs.Text.Inked

/-!
# Printed texts on a console

A console wraps what is printed. A text comes out as it is, with a line feed after it, exactly if
printing alters none of its characters and the console is wide enough for its lines; a highlighted
grammar must moreover hold no line break but line feeds, and not end with one. On two columns or
more, nothing but blanks and control characters is lost.
-/

namespace GrammarRules.Console

open Styled

/-- Whether a console with that many columns is wide enough for the lines of a text. -/
def Fits (columns : Nat) (text : String) : Prop :=
  0 < columns ∧ ∀ line ∈ text.toList.splitOn '\n', Text.Fits columns line

instance {columns : Nat} {text : String} : Decidable (Fits columns text) :=
  inferInstanceAs (Decidable (_ ∧ ∀ line ∈ text.toList.splitOn '\n', Text.Fits columns line))

variable {columns : Nat} {cs : List Char} {text : String}

theorem fits_iff : Fits columns text ↔ 0 < columns ∧ Text.wrap columns text.toList = text.toList :=
  and_congr_right fun _ => Text.wrap_eq_self_iff.symm

theorem wrapped_empty : wrapped columns "" = "" := by
  have hempty : Text.wrap columns [] = [] :=
    Text.wrap_eq_self_iff.mpr (List.forall_mem_singleton.mpr Text.fits_nil)
  rw [wrapped]
  split
  · rfl
  · exact congrArg String.ofList hempty

theorem wrapped_concat_feed_eq_iff : wrapped columns (String.ofList (cs ++ ['\n'])) = text ++ "\n" ↔
    0 < columns ∧ Text.wrap columns cs = text.toList := by
  rw [wrapped]
  split
  · next hzero =>
    refine iff_of_false (fun heq => ?_) fun h => absurd hzero (Nat.ne_of_gt h.1)
    have hchars := congrArg String.toList heq
    rw [String.toList_append] at hchars
    exact List.cons_ne_nil _ _ (List.append_eq_nil_iff.mp hchars.symm).2
  · next hne =>
    rw [String.toList_ofList, Text.wrap_concat_feed, ofList_concat_feed_eq_iff]
    exact (and_iff_right (Nat.pos_of_ne_zero hne)).symm

theorem wrapped_print_eq_iff (columns : Nat) (text : String) :
    wrapped columns (print text) = text ++ "\n" ↔
      (∀ c ∈ text.toList, isAltered c = false) ∧ Fits columns text := by
  rw [print, printedChars, wrapped_concat_feed_eq_iff, fits_iff]
  constructor
  · rintro ⟨hpos, hwrap⟩
    have hkept : ∀ c ∈ text.toList, isAltered c = false := by
      intro c hc
      rw [← hwrap] at hc
      rcases Text.mem_wrap hc with hc | rfl | rfl
      · exact isAltered_of_mem_printed hc
      · decide
      · decide
    rw [expandTabs_visible_eq_self_iff.mpr hkept] at hwrap
    exact ⟨hkept, hpos, hwrap⟩
  · rintro ⟨hkept, hpos, hwrap⟩
    rw [expandTabs_visible_eq_self_iff.mpr hkept]
    exact ⟨hpos, hwrap⟩

theorem wrapped_highlighted_eq_iff (columns : Nat) (mode : Mode) (text : String) :
    wrapped columns (printStyled (Highlight.text mode text)) = text ++ "\n" ↔
      ((∀ c ∈ text.toList, isKept c) ∧ text.toList.getLast? ≠ some '\n') ∧ Fits columns text := by
  rw [printStyled, printedChars, wrapped_concat_feed_eq_iff, Highlight.text,
    Highlight.chars_ofLines, fits_iff]
  constructor
  · rintro ⟨hpos, hwrap⟩
    have hkept : ∀ c ∈ text.toList, isKept c := by
      intro c hc
      rw [← hwrap] at hc
      rcases Text.mem_wrap hc with hc | rfl | rfl
      · exact isKept_of_mem_printed_lines hc
      · decide
      · decide
    have htab : '\t' ∉ text.toList := fun hmem => absurd (hkept '\t' hmem) (by decide)
    have hlines := intercalate_visible_lines hkept
    rw [expandTabs_visible_intercalate_lines htab] at hwrap
    by_cases hlast : text.toList.getLast? = some '\n'
    · -- the console would have to add the line feed that highlighting loses
      rw [if_pos hlast] at hlines
      exact absurd (hwrap.trans hlines.symm) Text.wrap_ne_concat_feed
    · rw [if_neg hlast, List.append_nil] at hlines
      rw [hlines] at hwrap
      exact ⟨⟨hkept, hlast⟩, hpos, hwrap⟩
  · rintro ⟨⟨hkept, hlast⟩, hpos, hwrap⟩
    have htab : '\t' ∉ text.toList := fun hmem => absurd (hkept '\t' hmem) (by decide)
    have hlines := intercalate_visible_lines hkept
    rw [if_neg hlast, List.append_nil] at hlines
    rw [expandTabs_visible_intercalate_lines htab, hlines]
    exact ⟨hpos, hwrap⟩

theorem inked_fillUp (piece : List Char) : Text.inked (fillUp piece) = Text.inked piece := by
  have hblank : Text.isBlank ' ' := by decide
  have hfilling : ∀ count : Nat, ∀ c ∈ ' ' :: List.replicate count ' ', Text.isBlank c :=
    fun count => List.forall_mem_cons.mpr ⟨hblank, fun c hc => List.eq_of_mem_replicate hc ▸ hblank⟩
  rw [fillUp, Text.inked_append, Text.inked_eq_nil (hfilling _), List.append_nil]

theorem inked_joinPieces (pieces : List (List Char)) :
    Text.inked (joinPieces pieces) = pieces.flatMap Text.inked := by
  fun_induction joinPieces pieces with
  | case1 => rfl
  | case2 piece => exact (List.append_nil _).symm
  | case3 piece pieces _ ih => rw [Text.inked_append, inked_fillUp, ih, ← List.flatMap_cons]

theorem inked_expandTabs (cs : List Char) : Text.inked (expandTabs cs) = Text.inked cs := by
  have htab : Text.isBlank '\t' := by decide
  have hfeed : Text.isBlank '\n' := by decide
  have hline : ∀ line : List Char, Text.inked (expandLine line) = Text.inked line := fun line => by
    rw [expandLine, inked_joinPieces, Text.flatMap_inked_splitOn htab]
  rw [expandTabs, Text.inked_intercalate (List.forall_mem_singleton.mpr hfeed), List.flatMap_map]
  simp only [hline]
  exact Text.flatMap_inked_splitOn hfeed cs

/-- Nothing but blanks and control characters is lost. -/
theorem inked_wrapped_print (hcolumns : 2 ≤ columns) (hplain : Text.Plain text.toList) :
    Text.inked (wrapped columns (print text)).toList = Text.inked (visible text.toList) := by
  have hprinted : Text.Plain (expandTabs (visible text.toList)) := by
    intro c hc
    rcases mem_expandTabs hc with rfl | rfl | ⟨hmem, -⟩
    · decide
    · decide
    · exact hplain c (List.mem_of_mem_filter hmem)
  have hfeed : Text.inked ['\n'] = [] := rfl
  rw [wrapped, if_neg (by omega), print, printedChars, String.toList_ofList, String.toList_ofList,
    Text.wrap_concat_feed, Text.inked_append, hfeed, List.append_nil,
    Text.inked_wrap hcolumns hprinted, inked_expandTabs]

/-- A message that is too wide is broken in front of a word. -/
example : wrapped 10 (printError "no root") = "Error: no \nroot\n" := by
  decide +kernel

end GrammarRules.Console
