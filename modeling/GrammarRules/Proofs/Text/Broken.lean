import Mathlib
import GrammarRules.Text.Wrap

/-!
# Broken lines

The columns of a text are at least those of its words, so the words of a line that is not too wide
stay together. Where a line is broken, at words and inside of them, none of its characters is lost,
and what comes last is not empty.
-/

namespace GrammarRules.Text

variable {limit used : Nat} {last : Option Char} {c : Char} {cs line : List Char}
  {words lines rest : List (List Char)}

/-! ## Columns of texts that are put together -/

theorem columnsAfter_cons (hjoiner : c ≠ '\u200d') (hpicture : c ≠ '\ufe0f') (cs : List Char) :
    columnsAfter last (c :: cs) =
      if width c = 0 then columnsAfter last cs else width c + columnsAfter (some c) cs := by
  rw [columnsAfter]
  · exact fun h _ => hjoiner h
  · exact fun _ _ h _ => hjoiner h
  · exact hpicture

/-- Texts character by character as their columns are counted: a joiner goes with the next one. -/
theorem columns_induction {P : List Char → Prop} (nil : P []) (joiner : P ['\u200d'])
    (joined : ∀ c cs, P cs → P ('\u200d' :: c :: cs)) (picture : ∀ cs, P cs → P ('\ufe0f' :: cs))
    (other : ∀ c cs, c ≠ '\u200d' → c ≠ '\ufe0f' → P cs → P (c :: cs)) (cs : List Char) : P cs := by
  induction cs using List.twoStepInduction with
  | nil => exact nil
  | singleton c =>
    by_cases hjoiner : c = '\u200d'
    · exact hjoiner ▸ joiner
    · by_cases hpicture : c = '\ufe0f'
      · exact hpicture ▸ picture [] nil
      · exact other c [] hjoiner hpicture nil
  | cons_cons c d cs ih ihnext =>
    by_cases hjoiner : c = '\u200d'
    · exact hjoiner ▸ joined d cs ih
    · by_cases hpicture : c = '\ufe0f'
      · exact hpicture ▸ picture (d :: cs) (ihnext d)
      · exact other c (d :: cs) hjoiner hpicture (ihnext d)

theorem columnsAfter_le_append (last : Option Char) (cs cs' : List Char) :
    columnsAfter last cs ≤ columnsAfter last (cs ++ cs') := by
  induction cs using columns_induction generalizing last with
  | nil => exact Nat.zero_le _
  | joiner => exact Nat.zero_le _
  | joined c cs ih => exact ih last
  | picture cs ih => exact Nat.add_le_add_left (ih none) _
  | other c cs hjoiner hpicture ih =>
    rw [List.cons_append, columnsAfter_cons hjoiner hpicture, columnsAfter_cons hjoiner hpicture]
    split
    · exact ih last
    · exact Nat.add_le_add_left (ih (some c)) _

theorem columns_le_columnsAfter (last : Option Char) (cs : List Char) :
    columns cs ≤ columnsAfter last cs := by
  rw [columns]
  induction cs using columns_induction with
  | nil => exact Nat.zero_le _
  | joiner => exact Nat.zero_le _
  | joined c cs ih => exact ih
  | picture cs ih => exact Nat.add_le_add_right (Nat.zero_le _) _
  | other c cs hjoiner hpicture ih =>
    rw [columnsAfter_cons hjoiner hpicture, columnsAfter_cons hjoiner hpicture]
    split
    · exact ih
    · exact le_rfl

theorem getLast?_ne_of_cons (h : (c :: cs).getLast? ≠ some '\u200d') :
    cs.getLast? ≠ some '\u200d' := by
  cases cs with
  | nil => nofun
  | cons d cs => rwa [List.getLast?_cons_cons] at h

/-- The columns of a text are counted in two parts if no joiner stands between them. -/
theorem columnsAfter_append (last : Option Char) (hjoiner : cs.getLast? ≠ some '\u200d')
    (cs' : List Char) : ∃ last', columnsAfter last (cs ++ cs') =
      columnsAfter last cs + columnsAfter last' cs' := by
  induction cs using columns_induction generalizing last with
  | nil => exact ⟨last, by simp [columnsAfter]⟩
  | joiner => exact absurd rfl hjoiner
  | joined c cs ih => exact ih last (getLast?_ne_of_cons (getLast?_ne_of_cons hjoiner))
  | picture cs ih =>
    obtain ⟨last', heq⟩ := ih none (getLast?_ne_of_cons hjoiner)
    exact ⟨last', by rw [List.cons_append, columnsAfter, columnsAfter, heq, Nat.add_assoc]⟩
  | other c cs hne hpicture ih =>
    have hrest := getLast?_ne_of_cons hjoiner
    rw [List.cons_append, columnsAfter_cons hne hpicture, columnsAfter_cons hne hpicture]
    split
    · exact ih last hrest
    · obtain ⟨last', heq⟩ := ih (some c) hrest
      exact ⟨last', by rw [heq, Nat.add_assoc]⟩

theorem columns_add_le (hjoiner : cs.getLast? ≠ some '\u200d') (cs' : List Char) :
    columns cs + columns cs' ≤ columns (cs ++ cs') := by
  obtain ⟨last, heq⟩ := columnsAfter_append none hjoiner cs'
  rw [columns, columns, columns, heq]
  exact Nat.add_le_add_left (columns_le_columnsAfter last cs') _

theorem trimEnd_isPrefix (cs : List Char) : trimEnd cs <+: cs := List.rdropWhile_prefix isBlank cs

theorem columns_trimEnd_le (cs : List Char) : columns (trimEnd cs) ≤ columns cs := by
  obtain ⟨blanks, heq⟩ := trimEnd_isPrefix cs
  calc columns (trimEnd cs) ≤ columns (trimEnd cs ++ blanks) := columnsAfter_le_append ..
    _ = columns cs := by rw [heq]

/-! ## Words -/

/-- No word is empty, and none but the last ends with a joiner. -/
def Spaced : List (List Char) → Prop
  | [] => True
  | word :: words => word ≠ [] ∧ (words ≠ [] → word.getLast? ≠ some '\u200d') ∧ Spaced words

theorem flatten_cutWords (cs : List Char) : (cutWords cs).1 ++ (cutWords cs).2.flatten = cs := by
  fun_induction cutWords cs with
  | case1 => rfl
  | case2 c cs blanks words hcut _ ih =>
    rw [hcut] at ih
    exact congrArg (c :: ·) ih
  | case3 c cs _ word words hcut ih =>
    rw [hcut] at ih
    exact congrArg (c :: ·) ih
  | case4 c cs _ blanks words _ hcut ih =>
    rw [hcut] at ih
    exact congrArg (c :: ·) ih

theorem isBlank_of_mem_cutWords (cs : List Char) : ∀ c ∈ (cutWords cs).1, isBlank c := by
  fun_induction cutWords cs with
  | case1 => exact List.forall_mem_nil _
  | case2 c cs blanks words hcut hc ih =>
    rw [hcut] at ih
    exact List.forall_mem_cons.mpr ⟨hc, ih⟩
  | case3 => exact List.forall_mem_nil _
  | case4 => exact List.forall_mem_nil _

theorem spaced_cutWords (cs : List Char) : Spaced (cutWords cs).2 := by
  fun_induction cutWords cs with
  | case1 => exact trivial
  | case2 c cs blanks words hcut _ ih => rwa [hcut] at ih
  | case3 c cs _ word words hcut ih =>
    rw [hcut] at ih
    obtain ⟨hne, hjoiner, hspaced⟩ := ih
    obtain ⟨d, word, rfl⟩ := List.exists_cons_of_ne_nil hne
    exact ⟨List.cons_ne_nil _ _, by rwa [List.getLast?_cons_cons], hspaced⟩
  | case4 c cs _ blanks words hopen hcut ih =>
    rw [hcut] at ih
    refine ⟨List.cons_ne_nil _ _, fun hwords hlast => ?_, ih⟩
    -- the word ends with a blank, as another one comes after it
    obtain ⟨word, words, rfl⟩ := List.exists_cons_of_ne_nil hwords
    cases blanks with
    | nil => exact hopen word words rfl rfl
    | cons d blanks =>
      rw [List.getLast?_cons_cons] at hlast
      have hblank := isBlank_of_mem_cutWords cs '\u200d'
      rw [hcut] at hblank
      exact absurd (hblank (List.mem_of_getLast? hlast)) (by decide)

/-- The words of a line hold all of it, unless it has none. -/
theorem flatten_wordsOf (h : wordsOf line ≠ []) : (wordsOf line).flatten = line := by
  have hflatten := flatten_cutWords line
  unfold wordsOf at h ⊢
  split at h
  · exact absurd rfl h
  · next blanks word words hcut =>
    rw [hcut] at hflatten
    rwa [List.flatten_cons, List.append_assoc]

theorem spaced_wordsOf (line : List Char) : Spaced (wordsOf line) := by
  have hspaced := spaced_cutWords line
  unfold wordsOf
  split
  · exact trivial
  · next blanks word words hcut =>
    rw [hcut] at hspaced
    obtain ⟨hne, hjoiner, hrest⟩ := hspaced
    exact ⟨List.append_ne_nil_of_right_ne_nil _ hne,
      by rwa [List.getLast?_append_of_ne_nil _ hne], hrest⟩

/-! ## Clusters -/

theorem flatten_clustersFrom (cluster cs : List Char) :
    (clustersFrom cluster cs).flatten = cluster ++ cs := by
  fun_induction clustersFrom cluster cs with
  | case1 => simp
  | case2 cluster c cs ih => simp [ih]
  | case3 cluster c cs _ _ ih => simp [ih]
  | case4 cluster c cs _ _ ih => simp [ih]

theorem flatten_clusters (cs : List Char) : (clusters cs).flatten = cs := by
  cases cs with
  | nil => rfl
  | cons c cs => exact flatten_clustersFrom [c] cs

theorem ne_nil_of_mem_clustersFrom {cluster : List Char} (hne : cluster ≠ []) (cs : List Char) :
    ∀ found ∈ clustersFrom cluster cs, found ≠ [] := by
  fun_induction clustersFrom cluster cs with
  | case1 => exact List.forall_mem_singleton.mpr hne
  | case2 cluster c cs ih => exact ih (List.append_ne_nil_of_left_ne_nil hne _)
  | case3 cluster c cs _ _ ih => exact ih (List.append_ne_nil_of_left_ne_nil hne _)
  | case4 cluster c cs _ _ ih =>
    exact List.forall_mem_cons.mpr ⟨hne, ih (List.cons_ne_nil c [])⟩

theorem ne_nil_of_mem_clusters (cs : List Char) : ∀ cluster ∈ clusters cs, cluster ≠ [] := by
  cases cs with
  | nil => exact List.forall_mem_nil _
  | cons c cs => exact ne_nil_of_mem_clustersFrom (List.cons_ne_nil c []) cs

/-! ## Lines that are filled -/

/-- Folding loses no cluster, and something is left over. -/
theorem exists_fold_eq (limit : Nat) (line : List Char) (hclusters : ∀ cluster ∈ rest, cluster ≠ [])
    (hne : line ++ rest.flatten ≠ []) : ∃ lines last, fold limit line rest = (lines, last) ∧
      lines.flatten ++ last = line ++ rest.flatten ∧ last ≠ [] := by
  induction rest generalizing line with
  | nil =>
    rw [List.flatten_nil, List.append_nil] at hne
    exact ⟨[], line, rfl, by simp, hne⟩
  | cons cluster rest ih =>
    obtain ⟨hcluster, hrest⟩ := List.forall_mem_cons.mp hclusters
    rw [fold]
    split
    · rw [List.flatten_cons, ← List.append_assoc] at hne ⊢
      exact ih (line ++ cluster) hrest hne
    · obtain ⟨lines, last, hfold, hflatten, hlast⟩ :=
        ih cluster hrest (List.append_ne_nil_of_left_ne_nil hcluster _)
      exact ⟨line :: lines, last, by rw [hfold],
        by rw [List.flatten_cons, List.append_assoc, hflatten, List.flatten_cons], hlast⟩

theorem exists_fold_clusters_eq (limit : Nat) (hne : cs ≠ []) : ∃ lines last,
    fold limit [] (clusters cs) = (lines, last) ∧ lines.flatten ++ last = cs ∧ last ≠ [] := by
  have hwhole : [] ++ (clusters cs).flatten = cs := flatten_clusters cs
  obtain ⟨lines, last, hfold, hflatten, hlast⟩ :=
    exists_fold_eq limit [] (ne_nil_of_mem_clusters cs) (by rwa [hwhole])
  exact ⟨lines, last, hfold, hflatten.trans hwhole, hlast⟩

/-- The first full line is full because the next cluster does not fit. -/
theorem exists_of_fold_eq_cons {kept unfilled : List Char}
    (h : fold limit line rest = (kept :: lines, unfilled)) : ∃ fitting cluster back,
      rest = fitting ++ cluster :: back ∧ kept = line ++ fitting.flatten ∧
        limit < columns kept + columns cluster := by
  induction rest generalizing line with
  | nil => cases h
  | cons cluster rest ih =>
    rw [fold] at h
    split at h
    · obtain ⟨fitting, next, back, rfl, rfl, hnext⟩ := ih h
      exact ⟨cluster :: fitting, next, back, rfl, by simp, hnext⟩
    · next hcluster =>
      cases h
      exact ⟨[], cluster, rest, rfl, by simp, Nat.lt_of_not_le hcluster⟩

theorem flatten_dropWhile_isEmpty (lines : List (List Char)) :
    (lines.dropWhile List.isEmpty).flatten = lines.flatten := by
  induction lines with
  | nil => rfl
  | cons line lines ih => cases line <;> simp [ih]

/-- Placing loses no word, and the last line is not empty. -/
theorem exists_place_eq (limit : Nat) (line : List Char) (used : Nat) (hspaced : Spaced words)
    (hne : line ++ words.flatten ≠ []) : ∃ lines last,
      place limit line used words = lines ++ [last] ∧
        lines.flatten ++ last = line ++ words.flatten ∧ last ≠ [] := by
  induction words generalizing line used with
  | nil =>
    rw [List.flatten_nil, List.append_nil] at hne
    exact ⟨[], line, rfl, by simp, hne⟩
  | cons word words ih =>
    obtain ⟨hword, -, hwords⟩ := hspaced
    have hstarted := List.append_ne_nil_of_left_ne_nil hword words.flatten
    rw [place]
    split
    · rw [List.flatten_cons, ← List.append_assoc] at hne ⊢
      exact ih (line ++ word) _ hwords hne
    · split
      · obtain ⟨lines, last, hplace, hflatten, hlast⟩ := ih word (columns word) hwords hstarted
        exact ⟨line :: lines, last, by rw [hplace, List.cons_append],
          by rw [List.flatten_cons, List.append_assoc, hflatten, List.flatten_cons], hlast⟩
      · obtain ⟨full, unfilled, hfold, hfull, hunfilled⟩ := exists_fold_clusters_eq limit hword
        obtain ⟨lines, last, hplace, hflatten, hlast⟩ := ih unfilled (columns unfilled) hwords
          (List.append_ne_nil_of_left_ne_nil hunfilled _)
        refine ⟨(line :: full).dropWhile List.isEmpty ++ lines, last, ?_, ?_, hlast⟩
        · simp only [hfold, hplace, List.append_assoc]
        · rw [List.flatten_append, flatten_dropWhile_isEmpty, List.append_assoc, hflatten,
            List.flatten_cons, List.flatten_cons, ← hfull]
          simp only [List.append_assoc]

/-- Words that fit in what is left of a line stay on it. -/
theorem place_eq_singleton (line : List Char) (hspaced : Spaced words)
    (h : used + columns words.flatten ≤ limit) :
    place limit line used words = [line ++ words.flatten] := by
  induction words generalizing line used with
  | nil => simp [place]
  | cons word words ih =>
    obtain ⟨-, hjoiner, hwords⟩ := hspaced
    have hrest : columns word + columns words.flatten ≤ columns (word ++ words.flatten) := by
      cases words with
      | nil => simp [columns, columnsAfter]
      | cons next words => exact columns_add_le (hjoiner (List.cons_ne_nil _ _)) _
    have htrimmed := columns_trimEnd_le word
    rw [List.flatten_cons] at h
    rw [place, if_pos (by omega), ih (line ++ word) hwords (by omega), List.flatten_cons,
      List.append_assoc]

/-! ## Lines that are broken -/

theorem exists_breakLine_eq (limit : Nat) (line : List Char) : ∃ lines last,
    breakLine limit line = lines ++ [last] ∧ lines.flatten ++ last = line ∧
      (lines ≠ [] → last ≠ []) := by
  unfold breakLine
  split
  · exact ⟨[], line, rfl, rfl, fun h => absurd rfl h⟩
  · next hwords =>
    have hspaced := spaced_wordsOf line
    have hflatten := flatten_wordsOf hwords
    have hne : (wordsOf line).flatten ≠ [] := by
      obtain ⟨word, words, heq⟩ := List.exists_cons_of_ne_nil hwords
      rw [heq] at hspaced ⊢
      exact List.append_ne_nil_of_left_ne_nil hspaced.1 _
    obtain ⟨lines, last, hplace, hlines, hlast⟩ := exists_place_eq limit [] 0 hspaced hne
    exact ⟨lines, last, hplace, by rw [hlines, List.nil_append, hflatten], fun _ => hlast⟩

theorem flatten_breakLine (limit : Nat) (line : List Char) :
    (breakLine limit line).flatten = line := by
  obtain ⟨lines, last, hbreak, hflatten, -⟩ := exists_breakLine_eq limit line
  rw [hbreak, List.flatten_concat, hflatten]

theorem breakLine_eq_singleton (h : columns line ≤ limit) : breakLine limit line = [line] := by
  unfold breakLine
  split
  · rfl
  · next hwords =>
    have hflatten := flatten_wordsOf hwords
    rw [place_eq_singleton [] (spaced_wordsOf line), hflatten, List.nil_append]
    rwa [Nat.zero_add, hflatten]

end GrammarRules.Text
