import GrammarRules.Proofs.Text.Broken
import GrammarRules.Proofs.Text.Pieces

/-!
# Wrapped texts

A text is wrapped as it is exactly if every line of it fits: it takes no more columns than there
are, and if it has more characters than that, it does not end with a blank. What is not left as it
is gets shorter, so a line that is broken or cut short is none of its own pieces.
-/

namespace GrammarRules.Text

variable {limit : Nat} {c : Char} {cs line : List Char} {lines rest : List (List Char)}

/-- Whether a line is wrapped as it is. -/
def Fits (limit : Nat) (line : List Char) : Prop :=
  columns line ≤ limit ∧ (line.length ≤ limit ∨ trimEnd line = line)

instance : Decidable (Fits limit line) := inferInstanceAs (Decidable (_ ∧ (_ ∨ _)))

theorem fits_nil : Fits limit [] := ⟨Nat.zero_le _, Or.inr rfl⟩

/-! ## Lines that are cut short -/

theorem trimFrom_eq_self_iff :
    trimFrom limit line = line ↔ line.length ≤ limit ∨ trimEnd line = line := by
  have hstart := trimEnd_isPrefix line
  rw [trimFrom, List.take_eq_self_iff, le_max_iff]
  refine or_congr_right ⟨fun h => ?_, fun h => by rw [h]⟩
  exact hstart.eq_of_length (le_antisymm hstart.length_le h)

/-- The first full line of a line that is folded ends where the next cluster does not fit. -/
theorem exists_of_fold_clusters {kept unfilled : List Char}
    (h : fold limit [] (clusters line) = (kept :: lines, unfilled)) : ∃ cluster back,
      line = kept ++ (cluster ++ back) ∧ cluster ∈ clusters line ∧
        limit < columns kept + columns cluster := by
  obtain ⟨fitting, cluster, back, hclusters, rfl, hcluster⟩ := exists_of_fold_eq_cons h
  have hline := congrArg List.flatten hclusters
  rw [flatten_clusters, List.flatten_append, List.flatten_cons] at hline
  exact ⟨cluster, back.flatten, hline, by simp [hclusters], hcluster⟩

/-- What is cropped ends where the next cluster does not fit, with a blank for half of it. -/
theorem exists_crop_eq (h : limit < columns line) : ∃ kept cluster back,
    line = kept ++ (cluster ++ back) ∧ cluster ≠ [] ∧ limit < columns kept + columns cluster ∧
      crop limit line = kept ++ if columns kept < limit then [' '] else [] := by
  rw [crop, if_neg (Nat.not_le_of_lt h)]
  rcases hfold : fold limit [] (clusters line) with ⟨_ | ⟨kept, lines⟩, unfilled⟩
  · have hne : line ≠ [] := by
      rintro rfl
      exact absurd h (Nat.not_lt_zero _)
    exact ⟨[], line, [], by simp, hne, Nat.lt_of_lt_of_le h (Nat.le_add_left _ _), rfl⟩
  · obtain ⟨cluster, back, hline, hmem, hcluster⟩ := exists_of_fold_clusters hfold
    exact ⟨kept, cluster, back, hline, ne_nil_of_mem_clusters line _ hmem, hcluster, rfl⟩

theorem length_crop_le (limit : Nat) (line : List Char) :
    (crop limit line).length ≤ line.length := by
  by_cases h : columns line ≤ limit
  · rw [crop, if_pos h]
  · obtain ⟨kept, cluster, back, rfl, hne, -, hcrop⟩ := exists_crop_eq (Nat.lt_of_not_le h)
    have hlength := List.length_pos_of_ne_nil hne
    rw [hcrop, List.length_append, List.length_append, List.length_append]
    split
    · rw [List.length_singleton]
      omega
    · exact Nat.add_le_add_left (Nat.zero_le _) _

theorem crop_eq_self_iff : crop limit line = line ↔ columns line ≤ limit := by
  refine ⟨fun h => ?_, fun h => by rw [crop, if_pos h]⟩
  by_contra hlimit
  obtain ⟨kept, cluster, back, hline, hne, hcluster, hcrop⟩ :=
    exists_crop_eq (Nat.lt_of_not_le hlimit)
  rw [hcrop, hline] at h
  have hend := List.append_cancel_left h
  split at hend
  · next hkept =>
    -- what did not fit would be one blank, which does fit
    have hblank : cluster = [' '] := by
      rcases List.append_eq_singleton_iff.mp hend.symm with ⟨hnil, -⟩ | ⟨hblank, -⟩
      · exact absurd hnil hne
      · exact hblank
    have hone : columns [' '] = 1 := by decide +kernel
    rw [hblank, hone] at hcluster
    omega
  · exact hne (List.append_eq_nil_iff.mp hend.symm).1

theorem mem_crop (h : c ∈ crop limit line) : c ∈ line ∨ c = ' ' := by
  by_cases hlimit : columns line ≤ limit
  · rw [crop, if_pos hlimit] at h
    exact Or.inl h
  · obtain ⟨kept, cluster, back, rfl, -, -, hcrop⟩ := exists_crop_eq (Nat.lt_of_not_le hlimit)
    rw [hcrop, List.mem_append] at h
    rcases h with h | h
    · exact Or.inl (List.mem_append_left _ h)
    · split at h
      · exact Or.inr (List.mem_singleton.mp h)
      · cases h

/-! ## Wrapped lines -/

theorem wrapLine_ne_nil (limit : Nat) (line : List Char) : wrapLine limit line ≠ [] := by
  obtain ⟨lines, last, hbreak, -⟩ := exists_breakLine_eq limit line
  simp [wrapLine, hbreak]

theorem mem_of_mem_wrapLine {piece : List Char} (h : piece ∈ wrapLine limit line) (hc : c ∈ piece) :
    c ∈ line ∨ c = ' ' := by
  obtain ⟨part, hpart, rfl⟩ := List.mem_map.mp h
  refine (mem_crop hc).imp_left fun hc => ?_
  rw [← flatten_breakLine limit line]
  exact List.mem_flatten.mpr ⟨part, hpart, List.mem_of_mem_take hc⟩

/-- A line that is broken does not come first among its pieces, as these are shorter. -/
theorem wrapLine_eq_cons (h : wrapLine limit line = line :: rest) : rest = [] := by
  obtain ⟨lines, last, hbreak, hflatten, hlast⟩ := exists_breakLine_eq limit line
  rw [wrapLine, hbreak, List.map_append, List.map_singleton] at h
  cases lines with
  | nil => exact (List.cons.inj h).2.symm
  | cons first lines =>
    have hfirst : crop limit (trimFrom limit first) = line := (List.cons.inj h).1
    have hcropped := length_crop_le limit (trimFrom limit first)
    have htrimmed := List.length_take_le' (max limit (trimEnd first).length) first
    have hlength := congrArg List.length hflatten
    have hpos := List.length_pos_of_ne_nil (hlast (List.cons_ne_nil _ _))
    rw [List.flatten_cons, List.length_append, List.length_append] at hlength
    rw [hfirst, trimFrom] at hcropped
    omega

theorem wrapLine_eq_singleton_iff : wrapLine limit line = [line] ↔ Fits limit line := by
  rw [Fits, ← trimFrom_eq_self_iff]
  constructor
  · intro h
    obtain ⟨lines, last, hbreak, hflatten, -⟩ := exists_breakLine_eq limit line
    have hlines : lines = [] := by
      have hlength := congrArg List.length h
      rw [wrapLine, List.length_map, hbreak, List.length_append] at hlength
      exact List.eq_nil_of_length_eq_zero (Nat.succ.inj hlength)
    subst hlines
    obtain rfl : last = line := hflatten
    have hcrop : crop limit (trimFrom limit last) = last := by
      rw [wrapLine, hbreak] at h
      exact (List.cons.inj h).1
    have hcropped := length_crop_le limit (trimFrom limit last)
    rw [hcrop] at hcropped
    have htrim : trimFrom limit last = last :=
      (List.take_prefix _ _).eq_of_length (le_antisymm (List.length_take_le' _ _) hcropped)
    rw [htrim, crop_eq_self_iff] at hcrop
    exact ⟨hcrop, htrim⟩
  · rintro ⟨hcolumns, htrim⟩
    rw [wrapLine, breakLine_eq_singleton hcolumns, List.map_singleton, htrim,
      crop_eq_self_iff.mpr hcolumns]

/-- Wrapped line by line, lines come first only if each is wrapped as it is. By induction on the
lines: the first of them is not broken. -/
theorem fits_of_flatMap_wrapLine_eq (h : lines.flatMap (wrapLine limit) = lines ++ rest) :
    rest = [] ∧ ∀ line ∈ lines, Fits limit line := by
  induction lines with
  | nil => exact ⟨h.symm, List.forall_mem_nil _⟩
  | cons line lines ih =>
    rw [List.flatMap_cons] at h
    obtain ⟨first, more, hwrap⟩ := List.exists_cons_of_ne_nil (wrapLine_ne_nil limit line)
    rw [hwrap] at h
    obtain ⟨rfl, hmore⟩ := List.cons.inj h
    obtain rfl := wrapLine_eq_cons hwrap
    obtain ⟨hrest, hlines⟩ := ih hmore
    exact ⟨hrest, List.forall_mem_cons.mpr ⟨wrapLine_eq_singleton_iff.mp hwrap, hlines⟩⟩

/-! ## Wrapped texts -/

theorem mem_wrap (h : c ∈ wrap limit cs) : c ∈ cs ∨ c = ' ' ∨ c = '\n' := by
  rcases mem_intercalate h with h | ⟨piece, hpiece, h⟩
  · exact Or.inr (Or.inr (List.mem_singleton.mp h))
  · obtain ⟨line, hline, hpiece⟩ := List.mem_flatMap.mp hpiece
    rcases mem_of_mem_wrapLine hpiece h with h | h
    · exact Or.inl (mem_of_mem_splitOn hline h)
    · exact Or.inr (Or.inl h)

theorem splitOn_wrap (limit : Nat) (cs : List Char) :
    (wrap limit cs).splitOn '\n' = (cs.splitOn '\n').flatMap (wrapLine limit) := by
  refine List.splitOn_intercalate '\n' (fun piece hpiece hfeed => ?_) (fun hnil => ?_)
  · obtain ⟨line, hline, hpiece⟩ := List.mem_flatMap.mp hpiece
    rcases mem_of_mem_wrapLine hpiece hfeed with h | h
    · exact not_mem_of_mem_splitOn hline h
    · exact absurd h (by decide)
  · obtain ⟨line, lines, hlines⟩ := List.exists_cons_of_ne_nil (List.splitOn_ne_nil '\n' cs)
    rw [hlines, List.flatMap_cons] at hnil
    exact wrapLine_ne_nil limit line (List.append_eq_nil_iff.mp hnil).1

theorem wrap_eq_self_iff : wrap limit cs = cs ↔ ∀ line ∈ cs.splitOn '\n', Fits limit line := by
  constructor
  · intro h
    have hlines := splitOn_wrap limit cs
    rw [h] at hlines
    exact (fits_of_flatMap_wrapLine_eq (hlines.symm.trans (List.append_nil _).symm)).2
  · intro h
    have hlines : (cs.splitOn '\n').flatMap (wrapLine limit) = cs.splitOn '\n' := by
      rw [List.flatMap_congr fun line hline => wrapLine_eq_singleton_iff.mpr (h line hline)]
      exact List.flatMap_singleton' _
    rw [wrap, hlines, List.intercalate_splitOn]

/-- Wrapping does not add a line feed at the end. -/
theorem wrap_ne_concat_feed : wrap limit cs ≠ cs ++ ['\n'] := by
  intro h
  have hlines := splitOn_wrap limit cs
  rw [h, List.splitOn_append_cons_self, List.splitOn_nil] at hlines
  exact List.cons_ne_nil _ _ (fits_of_flatMap_wrapLine_eq hlines.symm).1

theorem wrap_concat_feed (limit : Nat) (cs : List Char) :
    wrap limit (cs ++ ['\n']) = wrap limit cs ++ ['\n'] := by
  have hempty : wrapLine limit [] = [[]] := wrapLine_eq_singleton_iff.mpr fits_nil
  obtain ⟨piece, pieces, hpieces⟩ :=
    List.exists_cons_of_ne_nil (List.splitOn_ne_nil '\n' (wrap limit cs))
  rw [splitOn_wrap] at hpieces
  rw [wrap, List.splitOn_append_cons_self, List.splitOn_nil, List.flatMap_append,
    List.flatMap_singleton, hempty, wrap, hpieces, List.cons_append, intercalate_cons,
    intercalate_cons, List.flatMap_append, List.append_assoc]
  rfl

end GrammarRules.Text
