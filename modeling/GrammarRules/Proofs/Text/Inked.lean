import GrammarRules.Proofs.Text.Wrap

/-!
# What wrapping keeps

On two columns or more, wrapping a text loses none of its characters but blanks. Up to its last
character that is not blank, no line that is made takes too many columns, so that what is cut off at
the end of a line is blank. A text with joiners is left out here, as its columns are not those of
its characters.
-/

namespace GrammarRules.Text

variable {limit used : Nat} {last : Option Char} {c : Char}
  {cs cs' line cluster kept : List Char} {words rest lines : List (List Char)}

/-- The characters of a text that are not blank. -/
def inked (cs : List Char) : List Char := cs.filter fun c => !isBlank c

theorem inked_append (cs cs' : List Char) : inked (cs ++ cs') = inked cs ++ inked cs' :=
  List.filter_append ..

theorem inked_eq_nil (h : ∀ c ∈ cs, isBlank c) : inked cs = [] :=
  List.filter_eq_nil_iff.mpr fun c hc => by simp [h c hc]

theorem inked_flatten (pieces : List (List Char)) : inked pieces.flatten = pieces.flatMap inked :=
  List.filter_flatten ..

theorem inked_intercalate {separator : List Char} (h : ∀ c ∈ separator, isBlank c)
    (pieces : List (List Char)) : inked (separator.intercalate pieces) = pieces.flatMap inked := by
  induction pieces with
  | nil => rfl
  | cons piece pieces ih =>
    cases pieces with
    | nil => simp
    | cons next pieces =>
      rw [List.intercalate_cons_cons, inked_append, inked_append, inked_eq_nil h, ih,
        List.append_nil, ← List.flatMap_cons]

theorem flatMap_inked_splitOn (h : isBlank c) (cs : List Char) :
    (cs.splitOn c).flatMap inked = inked cs := by
  rw [← inked_intercalate (List.forall_mem_singleton.mpr h), List.intercalate_splitOn]

theorem trimEnd_append_blanks (cs : List Char) :
    ∃ blanks, cs = trimEnd cs ++ blanks ∧ ∀ c ∈ blanks, isBlank c :=
  ⟨cs.rtakeWhile isBlank, List.rdropWhile_append_rtakeWhile.symm,
    fun _ hc => List.mem_rtakeWhile_imp hc⟩

/-! ## Columns without joiners -/

/-- Whether no character of a text joins others or turns one into a picture. -/
def Plain (cs : List Char) : Prop := ∀ c ∈ cs, c ≠ '\u200d' ∧ c ≠ '\ufe0f'

theorem plain_append : Plain (cs ++ cs') ↔ Plain cs ∧ Plain cs' := List.forall_mem_append

theorem Plain.of_subset (h : Plain cs) (hsub : cs' ⊆ cs) : Plain cs' := fun c hc => h c (hsub hc)

theorem columnsAfter_eq_sum (h : Plain cs) : columnsAfter last cs = (cs.map width).sum := by
  induction cs generalizing last with
  | nil => rfl
  | cons c cs ih =>
    obtain ⟨⟨hjoiner, hpicture⟩, hcs⟩ := List.forall_mem_cons.mp h
    rw [columnsAfter_cons hjoiner hpicture, List.map_cons, List.sum_cons, ih hcs, ih hcs]
    split
    · next hzero => rw [hzero, Nat.zero_add]
    · rfl

theorem columns_append (h : Plain (cs ++ cs')) :
    columns (cs ++ cs') = columns cs + columns cs' := by
  obtain ⟨hcs, hcs'⟩ := plain_append.mp h
  rw [columns, columns, columns, columnsAfter_eq_sum h, columnsAfter_eq_sum hcs,
    columnsAfter_eq_sum hcs', List.map_append, List.sum_append]

theorem columns_le_of_isPrefix (h : cs <+: cs') : columns cs ≤ columns cs' := by
  obtain ⟨back, rfl⟩ := h
  exact columnsAfter_le_append ..

/-! ## Clusters without joiners -/

theorem width_le_two (c : Char) : width c ≤ 2 := by
  unfold width
  split
  · exact Nat.zero_le _
  · split
    · exact le_rfl
    · exact Nat.le_succ _

/-- A character and marks behind it that stand in its columns. -/
def Marked (cluster : List Char) : Prop :=
  ∃ c marks, cluster = c :: marks ∧ ∀ mark ∈ marks, width mark = 0

theorem marked_of_mem_clustersFrom {cluster' : List Char} (hmarked : Marked cluster)
    (hcs : Plain cs) (h : cluster' ∈ clustersFrom cluster cs) : Marked cluster' := by
  fun_induction clustersFrom cluster cs with
  | case1 => rwa [List.mem_singleton.mp h]
  | case2 cluster d cs => exact absurd rfl (hcs '\u200d' List.mem_cons_self).1
  | case3 cluster d cs _ hzero ih =>
    obtain ⟨c, marks, rfl, hmarks⟩ := hmarked
    refine ih ⟨c, marks ++ [d], rfl, ?_⟩ (List.forall_mem_cons.mp hcs).2 h
    exact List.forall_mem_append.mpr ⟨hmarks, List.forall_mem_singleton.mpr hzero⟩
  | case4 cluster d cs _ _ ih =>
    rcases List.mem_cons.mp h with rfl | h
    · exact hmarked
    · exact ih ⟨d, [], rfl, List.forall_mem_nil _⟩ (List.forall_mem_cons.mp hcs).2 h

theorem marked_of_mem_clusters (hcs : Plain cs) (h : cluster ∈ clusters cs) : Marked cluster := by
  cases cs with
  | nil => cases h
  | cons c cs =>
    exact marked_of_mem_clustersFrom ⟨c, [], rfl, List.forall_mem_nil _⟩
      (List.forall_mem_cons.mp hcs).2 h

theorem subset_of_mem_clusters (h : cluster ∈ clusters cs) : cluster ⊆ cs := by
  have hstands := (List.sublist_flatten_of_mem h).subset
  rwa [flatten_clusters] at hstands

theorem columns_marked {marks : List Char} (hplain : Plain (c :: marks))
    (hmarks : ∀ mark ∈ marks, width mark = 0) : columns (c :: marks) = width c := by
  have hzero : (marks.map width).sum = 0 := by
    rw [List.sum_eq_zero_iff]
    exact List.forall_mem_map.mpr hmarks
  rw [columns, columnsAfter_eq_sum hplain, List.map_cons, List.sum_cons, hzero, Nat.add_zero]

theorem columns_clusters_le (hlimit : 2 ≤ limit) (hplain : Plain cs) :
    ∀ cluster ∈ clusters cs, columns cluster ≤ limit := by
  intro cluster hcluster
  have hcolumns := hplain.of_subset (subset_of_mem_clusters hcluster)
  obtain ⟨c, marks, rfl, hmarks⟩ := marked_of_mem_clusters hplain hcluster
  rw [columns_marked hcolumns hmarks]
  exact (width_le_two c).trans hlimit

/-- However little is taken of a cluster, it takes all of its columns. -/
theorem columns_cluster_le {part back : List Char} (hplain : Plain (cluster ++ back))
    (h : Marked cluster) (hstart : part <+: cluster ++ back) (hne : part ≠ []) :
    columns cluster ≤ columns part := by
  obtain ⟨c, marks, rfl, hmarks⟩ := h
  obtain ⟨d, part, rfl⟩ := List.exists_cons_of_ne_nil hne
  obtain ⟨rfl, -⟩ := List.cons_prefix_cons.mp hstart
  have hpart := hplain.of_subset hstart.subset
  rw [columns_marked (plain_append.mp hplain).1 hmarks, columns,
    columnsAfter_eq_sum hpart, List.map_cons, List.sum_cons]
  exact Nat.le_add_right _ _

/-! ## Lines that are not too wide -/

theorem columns_fold_le {unfilled : List Char} (hplain : Plain (line ++ rest.flatten))
    (hline : columns line ≤ limit) (hrest : ∀ cluster ∈ rest, columns cluster ≤ limit)
    (h : fold limit line rest = (lines, unfilled)) :
    (∀ full ∈ lines, columns full ≤ limit) ∧ columns unfilled ≤ limit := by
  induction rest generalizing line lines with
  | nil =>
    cases h
    exact ⟨List.forall_mem_nil _, hline⟩
  | cons cluster rest ih =>
    obtain ⟨hcluster, hrest⟩ := List.forall_mem_cons.mp hrest
    rw [List.flatten_cons, ← List.append_assoc] at hplain
    rw [fold] at h
    split at h
    · next hfits =>
      rw [← columns_append (plain_append.mp hplain).1] at hfits
      exact ih hplain hfits hrest h
    · rw [List.append_assoc] at hplain
      rcases hfold : fold limit cluster rest with ⟨more, unfilled'⟩
      rw [hfold] at h
      cases h
      obtain ⟨hmore, hunfilled⟩ := ih (plain_append.mp hplain).2 hcluster hrest hfold
      exact ⟨List.forall_mem_cons.mpr ⟨hline, hmore⟩, hunfilled⟩

theorem columns_fold_clusters_le {unfilled : List Char} (hlimit : 2 ≤ limit) (hplain : Plain cs)
    (h : fold limit [] (clusters cs) = (lines, unfilled)) :
    (∀ full ∈ lines, columns full ≤ limit) ∧ columns unfilled ≤ limit := by
  have hwhole : [] ++ (clusters cs).flatten = cs := flatten_clusters cs
  exact columns_fold_le (by rwa [hwhole]) (Nat.zero_le _) (columns_clusters_le hlimit hplain) h

theorem trimEnd_append_isPrefix (line word : List Char) :
    trimEnd line <+: trimEnd (line ++ word) ∧ trimEnd (line ++ word) <+: line ++ trimEnd word := by
  induction word using List.reverseRecOn with
  | nil =>
    rw [List.append_nil]
    exact ⟨List.prefix_rfl, (trimEnd_isPrefix line).trans (List.prefix_append _ _)⟩
  | append_singleton word c ih =>
    by_cases hc : isBlank c
    · have htrim : ∀ cs : List Char, trimEnd (cs ++ [c]) = trimEnd cs := fun cs =>
        List.rdropWhile_concat_pos isBlank cs c hc
      rwa [← List.append_assoc, htrim, htrim]
    · have htrim : ∀ cs : List Char, trimEnd (cs ++ [c]) = cs ++ [c] := fun cs =>
        List.rdropWhile_concat_neg isBlank cs c hc
      rw [htrim, ← List.append_assoc, htrim, List.append_assoc]
      exact ⟨(trimEnd_isPrefix line).trans (List.prefix_append _ _), List.prefix_rfl⟩

theorem trimEnd_prefix_trimEnd (h : cs <+: cs') : trimEnd cs <+: trimEnd cs' := by
  obtain ⟨back, rfl⟩ := h
  exact (trimEnd_append_isPrefix cs back).1

/-- Up to its last character that is not blank, no line that words make is too wide. -/
theorem columns_trimEnd_place_le (hlimit : 2 ≤ limit) (hspaced : Spaced words)
    (hplain : Plain (line ++ words.flatten)) (hline : columns (trimEnd line) ≤ limit) :
    ∀ placed ∈ place limit line (columns line) words, columns (trimEnd placed) ≤ limit := by
  induction words generalizing line with
  | nil => exact List.forall_mem_singleton.mpr hline
  | cons word words ih =>
    obtain ⟨hne, -, hspaced⟩ := hspaced
    have hwords := (plain_append.mp hplain).2
    rw [List.flatten_cons, ← List.append_assoc] at hplain
    have hstarted := (plain_append.mp hplain).1
    rw [place]
    split
    · next hfits =>
      have htrimmed : Plain (line ++ trimEnd word) := hstarted.of_subset
        ((List.prefix_append_right_inj line).mpr (trimEnd_isPrefix word)).subset
      rw [← columns_append hstarted]
      refine ih hspaced hplain ?_
      calc columns (trimEnd (line ++ word)) ≤ columns (line ++ trimEnd word) :=
            columns_le_of_isPrefix (trimEnd_append_isPrefix line word).2
        _ = columns line + columns (trimEnd word) := columns_append htrimmed
        _ ≤ limit := hfits
    · split
      · next hfits => exact List.forall_mem_cons.mpr ⟨hline, ih hspaced hwords hfits⟩
      · -- the word is cut between clusters, none of which takes more than two columns
        have hword : Plain word := (plain_append.mp hstarted).2
        obtain ⟨full, unfilled, hfold, hfull, -⟩ := exists_fold_clusters_eq limit hne
        obtain ⟨hlines, hunfilled⟩ := columns_fold_clusters_le hlimit hword hfold
        rw [hfold]
        refine List.forall_mem_append.mpr ⟨fun placed hplaced => ?_, ih hspaced ?_ ?_⟩
        · rcases List.mem_cons.mp ((List.dropWhile_sublist _).subset hplaced) with rfl | hplaced
          · exact hline
          · exact (columns_trimEnd_le placed).trans (hlines placed hplaced)
        · rw [List.flatten_cons, ← hfull, List.append_assoc] at hwords
          exact (plain_append.mp hwords).2
        · exact (columns_trimEnd_le unfilled).trans hunfilled

theorem isBlank_of_wordsOf_eq_nil (h : wordsOf line = []) : ∀ c ∈ line, isBlank c := by
  have hblanks := isBlank_of_mem_cutWords line
  have hflatten := flatten_cutWords line
  unfold wordsOf at h
  split at h
  · next blanks hcut =>
    rw [hcut, List.flatten_nil, List.append_nil] at hflatten
    rwa [hcut, hflatten] at hblanks
  · cases h

theorem columns_trimEnd_breakLine_le (hlimit : 2 ≤ limit) (hplain : Plain line) :
    ∀ piece ∈ breakLine limit line, columns (trimEnd piece) ≤ limit := by
  unfold breakLine
  split
  · next hwords =>
    have htrim : trimEnd line = [] :=
      List.rdropWhile_eq_nil_iff.mpr (isBlank_of_wordsOf_eq_nil hwords)
    rw [List.forall_mem_singleton, htrim]
    exact Nat.zero_le _
  · next hwords =>
    refine columns_trimEnd_place_le hlimit (spaced_wordsOf line) ?_ (Nat.zero_le _)
    rwa [List.nil_append, flatten_wordsOf hwords]

/-! ## What is cut off -/

theorem inked_of_isPrefix {part : List Char} (htrim : trimEnd cs <+: part) (hpart : part <+: cs) :
    inked part = inked cs := by
  obtain ⟨blanks, hcs, hblanks⟩ := trimEnd_append_blanks cs
  obtain ⟨front, rfl⟩ := htrim
  obtain ⟨back, hback⟩ := hpart
  have htail : front ++ back = blanks := by
    rw [List.append_assoc] at hback
    exact List.append_cancel_left (hback.trans hcs)
  have hfront : ∀ c ∈ front, isBlank c := fun c hc =>
    hblanks c (htail ▸ List.mem_append_left _ hc)
  have htrimmed := congrArg inked hcs
  rw [inked_append, inked_eq_nil hblanks] at htrimmed
  rw [htrimmed, inked_append, inked_eq_nil hfront]

theorem inked_trimFrom (limit : Nat) (line : List Char) :
    inked (trimFrom limit line) = inked line := by
  refine inked_of_isPrefix ?_ (List.take_prefix _ _)
  exact List.prefix_take_iff.mpr ⟨trimEnd_isPrefix line, le_max_right _ _⟩

/-- A full line goes on up to the last character that is not blank, as the cluster that does not
fit comes after it. -/
theorem trimEnd_prefix_of_fold {unfilled : List Char} (hplain : Plain line)
    (h : columns (trimEnd line) ≤ limit)
    (hfold : fold limit [] (clusters line) = (kept :: lines, unfilled)) :
    trimEnd line <+: kept ∧ kept <+: line := by
  obtain ⟨cluster, back, hline, hmem, hcluster⟩ := exists_of_fold_clusters hfold
  have hkept : kept <+: line := hline ▸ List.prefix_append _ _
  refine ⟨?_, hkept⟩
  rcases List.prefix_or_prefix_of_prefix (trimEnd_isPrefix line) hkept with htrim | ⟨part, hpart⟩
  · exact htrim
  · by_cases hne : part = []
    · rw [← hpart, hne, List.append_nil]
    · have hstart : part <+: cluster ++ back := by
        have htrim := trimEnd_isPrefix line
        rw [← hpart, hline] at htrim
        exact (List.prefix_append_right_inj kept).mp htrim
      have htrimmed : Plain (kept ++ part) :=
        hpart ▸ hplain.of_subset (trimEnd_isPrefix line).subset
      rw [hline] at hplain
      have hcolumns := columns_cluster_le (plain_append.mp hplain).2
        (marked_of_mem_clusters (hline ▸ hplain) hmem) hstart hne
      rw [← hpart, columns_append htrimmed] at h
      omega

theorem inked_crop (hlimit : 2 ≤ limit) (hplain : Plain line) (h : columns (trimEnd line) ≤ limit) :
    inked (crop limit line) = inked line := by
  rw [crop]
  split
  · rfl
  · next hwide =>
    have hblank : ∀ kept : List Char, inked (if columns kept < limit then [' '] else []) = [] := by
      intro kept
      split <;> rfl
    rw [inked_append, hblank, List.append_nil]
    rcases hfold : fold limit [] (clusters line) with ⟨_ | ⟨kept, lines⟩, unfilled⟩
    · -- the whole line would be left over, and fit
      have hne : line ≠ [] := by
        rintro rfl
        exact hwide (Nat.zero_le _)
      obtain ⟨full, last, heq, hfull, -⟩ := exists_fold_clusters_eq limit hne
      have hfits := (columns_fold_clusters_le hlimit hplain hfold).2
      rw [hfold] at heq
      cases heq
      rw [List.flatten_nil, List.nil_append] at hfull
      exact absurd (hfull ▸ hfits) hwide
    · obtain ⟨htrim, hkept⟩ := trimEnd_prefix_of_fold hplain h hfold
      exact inked_of_isPrefix htrim hkept

/-! ## Wrapped texts -/

theorem flatMap_inked_wrapLine (hlimit : 2 ≤ limit) (hplain : Plain line) :
    (wrapLine limit line).flatMap inked = inked line := by
  have hpiece : ∀ piece ∈ breakLine limit line,
      inked (crop limit (trimFrom limit piece)) = inked piece := by
    intro piece hmem
    have hstands := (List.sublist_flatten_of_mem hmem).subset
    rw [flatten_breakLine] at hstands
    have htrimmed : trimFrom limit piece <+: piece := List.take_prefix _ _
    rw [inked_crop hlimit, inked_trimFrom]
    · exact hplain.of_subset (List.Subset.trans htrimmed.subset hstands)
    · exact (columns_le_of_isPrefix (trimEnd_prefix_trimEnd htrimmed)).trans
        (columns_trimEnd_breakLine_le hlimit hplain piece hmem)
  rw [wrapLine, List.flatMap_map, List.flatMap_congr hpiece, ← inked_flatten, flatten_breakLine]

/-- Wrapping loses nothing but blanks. -/
theorem inked_wrap (hlimit : 2 ≤ limit) (hplain : Plain cs) : inked (wrap limit cs) = inked cs := by
  have hfeed : isBlank '\n' := by decide
  have hlines : ∀ line ∈ cs.splitOn '\n', (wrapLine limit line).flatMap inked = inked line :=
    fun line hline => flatMap_inked_wrapLine hlimit fun c hc =>
      hplain c (mem_of_mem_splitOn hline hc)
  rw [wrap, inked_intercalate (List.forall_mem_singleton.mpr hfeed), List.flatMap_assoc,
    List.flatMap_congr hlines, flatMap_inked_splitOn hfeed]

end GrammarRules.Text
