import Mathlib
import GrammarRules.Text.Blank
import GrammarRules.Text.Lower

/-!
# Texts without regard to case and blanks

Lower case depends on the neighbours of a character only through whether the nearest one that counts
has a case. The ASCII letters have one, as capitals and as small letters, and no blank has one or is
skipped. So a text has the same lower case whichever ASCII letters of it are capitals, and blanks
around a text stay as they are and change nothing between them. Trimming takes them off.
-/

namespace GrammarRules.Text

def Ranges.disjoint (ranges ranges' : Ranges) : Bool :=
  ranges.all fun (low, high) => ranges'.all fun (low', high') => high < low' || high' < low

theorem Ranges.contains_eq_false_of_disjoint {ranges ranges' : Ranges}
    (h : ranges.disjoint ranges') {c : Char} (hc : ranges.contains c) :
    ranges'.contains c = false := by
  obtain ⟨⟨low, high⟩, hmem, hin⟩ := List.any_eq_true.mp hc
  refine List.any_eq_false.mpr fun ⟨low', high'⟩ hmem' hin' => ?_
  have happart := List.all_eq_true.mp (List.all_eq_true.mp h _ hmem) _ hmem'
  simp only [Bool.and_eq_true, decide_eq_true_eq, Bool.or_eq_true] at hin hin' happart
  omega

def capitalRanges : Ranges := lowerRows.map fun (low, high, _, _) => (low, high)

theorem lowerChar_eq_self {c : Char} (h : capitalRanges.contains c = false) : lowerChar c = c := by
  have hrow : (lowerRows.find? fun (low, high, step, _) =>
      low ≤ c.toNat && c.toNat ≤ high && (c.toNat - low) % step = 0) = none := by
    refine List.find?_eq_none.mpr fun ⟨low, high, step, shift⟩ hmem hin => ?_
    have hout := List.any_eq_false.mp h (low, high) (List.mem_map.mpr ⟨_, hmem, rfl⟩)
    simp only [Bool.and_eq_true] at hin
    exact hout (Bool.and_eq_true_iff.mpr hin.1)
  rw [lowerChar, hrow]

structure IsCaseless (c : Char) : Prop where
  cased : casedRanges.contains c = false
  ignorable : caseIgnorableRanges.contains c = false
  lower : lowerChar c = c

theorem isCaseless_of_isBlank {c : Char} (h : isBlank c) : IsCaseless c where
  cased := Ranges.contains_eq_false_of_disjoint (by decide +kernel) h
  ignorable := Ranges.contains_eq_false_of_disjoint (by decide +kernel) h
  lower := lowerChar_eq_self (Ranges.contains_eq_false_of_disjoint (by decide +kernel) h)

theorem startsCased_cons (c : Char) (cs : List Char) :
    startsCased (c :: cs) =
      if caseIgnorableRanges.contains c then startsCased cs else casedRanges.contains c := by
  by_cases hc : caseIgnorableRanges.contains c
  · rw [startsCased, List.dropWhile_cons, if_pos hc, if_pos hc, startsCased]
  · rw [startsCased, List.dropWhile_cons, if_neg hc, if_neg hc]

/-- What stands before a text counts only by whether its nearest character that counts has a
case. -/
theorem lowerFrom_congr {before before' : List Char}
    (h : startsCased before = startsCased before') (cs : List Char) :
    lowerFrom before cs = lowerFrom before' cs := by
  induction cs generalizing before before' with
  | nil => rfl
  | cons c cs ih =>
    have hnext : startsCased (c :: before) = startsCased (c :: before') := by
      rw [startsCased_cons, startsCased_cons, h]
    rw [lowerFrom, lowerFrom, h, ih hnext]

theorem lowerFrom_cons_of_isCaseless {c : Char} (h : IsCaseless c) (before cs : List Char) :
    lowerFrom before (c :: cs) = c :: lowerFrom (c :: before) cs := by
  have hdotted : c ≠ '\u0130' := by
    rintro rfl
    exact absurd h.cased (by decide)
  have hsigma : c ≠ '\u03a3' := by
    rintro rfl
    exact absurd h.cased (by decide)
  have hplain : ¬ (c = '\u03a3' && startsCased before && !startsCased cs) = true := by
    simp [hsigma]
  rw [lowerFrom, if_neg hdotted, if_neg hplain, h.lower]
  rfl

def letterRanges : Ranges := [(0x41, 0x5a), (0x61, 0x7a)]

theorem cased_of_letter {c : Char} (h : letterRanges.contains c) : casedRanges.contains c := by
  have hrows : ∀ range ∈ letterRanges, range ∈ casedRanges := by decide
  obtain ⟨range, hmem, hin⟩ := List.any_eq_true.mp h
  exact List.any_eq_true.mpr ⟨range, hrows range hmem, hin⟩

theorem not_ignorable_of_letter {c : Char} (h : letterRanges.contains c) :
    caseIgnorableRanges.contains c = false :=
  Ranges.contains_eq_false_of_disjoint (by decide +kernel) h

/-- Two characters that lower case treats alike, by themselves and as neighbours. -/
structure CaseAlike (c d : Char) : Prop where
  cased : casedRanges.contains c = casedRanges.contains d
  ignorable : caseIgnorableRanges.contains c = caseIgnorableRanges.contains d
  lower : lowerChar c = lowerChar d
  dotted : c = '\u0130' ↔ d = '\u0130'
  sigma : c = '\u03a3' ↔ d = '\u03a3'

theorem caseAlike_of_letters {c d : Char} (hc : letterRanges.contains c)
    (hd : letterRanges.contains d) (hlower : lowerChar c = lowerChar d) : CaseAlike c d where
  cased := by rw [cased_of_letter hc, cased_of_letter hd]
  ignorable := by rw [not_ignorable_of_letter hc, not_ignorable_of_letter hd]
  lower := hlower
  dotted := by
    have hdotted : ¬ letterRanges.contains '\u0130' := by decide
    exact iff_of_false (fun heq => hdotted (heq ▸ hc)) fun heq => hdotted (heq ▸ hd)
  sigma := by
    have hsigma : ¬ letterRanges.contains '\u03a3' := by decide
    exact iff_of_false (fun heq => hsigma (heq ▸ hc)) fun heq => hsigma (heq ▸ hd)

theorem caseAlike_toLower (c : Char) : CaseAlike c.toLower c := by
  by_cases hc : c.isUpper
  · have hbounds : 0x41 ≤ c.toNat ∧ c.toNat ≤ 0x5a := by
      simp only [Char.isUpper, decide_eq_true_eq] at hc
      exact hc
    obtain ⟨n, hn⟩ := Nat.exists_eq_add_of_le hbounds.1
    have hsmall : n < 26 := by omega
    have hletters : ∀ n < 26, letterRanges.contains (Char.ofNat (0x41 + n)).toLower ∧
        letterRanges.contains (Char.ofNat (0x41 + n)) := by
      decide
    have hlower : ∀ n < 26, lowerChar (Char.ofNat (0x41 + n)).toLower =
        lowerChar (Char.ofNat (0x41 + n)) := by
      decide +kernel
    rw [← Char.ofNat_toNat c, hn]
    obtain ⟨hl, hu⟩ := hletters n hsmall
    exact caseAlike_of_letters hl hu (hlower n hsmall)
  · rw [Char.toLower_eq_of_not_isUpper hc]
    exact ⟨rfl, rfl, rfl, Iff.rfl, Iff.rfl⟩

theorem startsCased_map_toLower (cs : List Char) :
    startsCased (cs.map Char.toLower) = startsCased cs := by
  induction cs with
  | nil => rfl
  | cons c cs ih =>
    have halike := caseAlike_toLower c
    rw [List.map_cons, startsCased_cons, startsCased_cons, halike.ignorable, halike.cased, ih]

/-- ASCII letters have the same lower case as capitals and as small letters, and so have the
characters around them. -/
theorem lowerFrom_map_toLower (before cs : List Char) :
    lowerFrom before (cs.map Char.toLower) = lowerFrom before cs := by
  induction cs generalizing before with
  | nil => rfl
  | cons c cs ih =>
    have halike := caseAlike_toLower c
    have hnext : startsCased (c.toLower :: before) = startsCased (c :: before) := by
      rw [startsCased_cons, startsCased_cons, halike.ignorable, halike.cased]
    rw [List.map_cons, lowerFrom, lowerFrom, lowerFrom_congr hnext, ih, startsCased_map_toLower]
    simp only [halike.dotted, halike.sigma, halike.lower]

theorem lower_eq_of_map_toLower_eq {text text' : String}
    (h : text'.map Char.toLower = text.map Char.toLower) : lower text' = lower text := by
  have hmap : text'.toList.map Char.toLower = text.toList.map Char.toLower := by
    rw [← String.toList_map, h, String.toList_map]
  rw [lower, lower, ← lowerFrom_map_toLower, hmap, lowerFrom_map_toLower]

variable {blanks : List Char} (hblanks : ∀ c ∈ blanks, isBlank c)
include hblanks

theorem startsCased_append_blanks (cs : List Char) :
    startsCased (cs ++ blanks) = startsCased cs := by
  induction cs with
  | nil =>
    cases blanks with
    | nil => rfl
    | cons c blanks =>
      have hc := isCaseless_of_isBlank (hblanks c List.mem_cons_self)
      rw [List.nil_append, startsCased_cons, if_neg (by simp [hc.ignorable]), hc.cased]
      rfl
  | cons c cs ih => rw [List.cons_append, startsCased_cons, startsCased_cons, ih]

theorem lowerFrom_blanks (before : List Char) : lowerFrom before blanks = blanks := by
  induction blanks generalizing before with
  | nil => rfl
  | cons c blanks ih =>
    obtain ⟨hc, hblanks⟩ := List.forall_mem_cons.mp hblanks
    rw [lowerFrom_cons_of_isCaseless (isCaseless_of_isBlank hc), ih hblanks]

theorem lowerFrom_append_blanks (before cs : List Char) :
    lowerFrom before (cs ++ blanks) = lowerFrom before cs ++ blanks := by
  induction cs generalizing before with
  | nil => exact lowerFrom_blanks hblanks before
  | cons c cs ih =>
    rw [List.cons_append, lowerFrom, lowerFrom, startsCased_append_blanks hblanks, ih,
      List.append_assoc]

theorem lowerFrom_blanks_append {before : List Char} (h : startsCased before = false)
    (cs : List Char) : lowerFrom before (blanks ++ cs) = blanks ++ lowerFrom [] cs := by
  induction blanks generalizing before with
  | nil => exact lowerFrom_congr h cs
  | cons c blanks ih =>
    obtain ⟨hc, hblanks⟩ := List.forall_mem_cons.mp hblanks
    have hcaseless := isCaseless_of_isBlank hc
    have hnext : startsCased (c :: before) = false := by
      rw [startsCased_cons, if_neg (by simp [hcaseless.ignorable]), hcaseless.cased]
    rw [List.cons_append, lowerFrom_cons_of_isCaseless hcaseless, ih hblanks hnext,
      List.cons_append]

omit hblanks

variable {before after : List Char} (hbefore : ∀ c ∈ before, isBlank c)
  (hafter : ∀ c ∈ after, isBlank c)
include hbefore hafter

/-- Blanks around a text stay around its lower case. -/
theorem lowerFrom_between_blanks (cs : List Char) :
    lowerFrom [] (before ++ cs ++ after) = before ++ lowerFrom [] cs ++ after := by
  rw [lowerFrom_append_blanks hafter, lowerFrom_blanks_append hbefore rfl]

theorem trimChars_between_blanks (cs : List Char) :
    trimChars (before ++ cs ++ after) = trimChars cs := by
  have hreverse : ∀ c ∈ after.reverse, isBlank c := fun c hc => hafter c (List.mem_reverse.mp hc)
  have hall : after.dropWhile isBlank = [] := List.dropWhile_eq_nil_iff.mpr hafter
  rw [trimChars, trimChars, List.append_assoc, List.dropWhile_append_of_pos hbefore,
    List.dropWhile_append]
  split
  · next hempty => rw [hall, List.isEmpty_iff.mp hempty]
  · rw [List.reverse_append, List.dropWhile_append_of_pos hreverse]

end GrammarRules.Text
