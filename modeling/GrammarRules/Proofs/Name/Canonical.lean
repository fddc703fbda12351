import GrammarRules.Proofs.Name.Boundary

/-!
# Canonical names

A plain word holds small letters alone or digits alone. The words of any name are plain in lower
case, and plain words between separators are read as they are, so a written name has the words it
was written from. Writing a name again, in the same notation or the other, gives what the name
itself gives, and the names that are written as they are spelled are the plain words joined by the
separator.
-/

namespace GrammarRules.Words

variable {cs w : List Char} {c : Char} {words : List (List Char)}

def IsPlain (w : List Char) : Prop := w ≠ [] ∧ ((∀ c ∈ w, c.isLower) ∨ ∀ c ∈ w, c.isDigit)

/-- Characters of a kind that continue each other are one word, up to a separator. -/
theorem split_append {p : Char → Bool} (halnum : ∀ c, p c → c.isAlphanum)
    (hp : ∀ c d cs, p c → p d → Continues c (d :: cs)) (hne : w ≠ []) (hw : ∀ c ∈ w, p c)
    (hcs : ∀ c ∈ cs.head?, c.isAlphanum = false) : split (w ++ cs) = w :: split cs := by
  induction w with
  | nil => exact absurd rfl hne
  | cons c w ih =>
    obtain ⟨hc, hw⟩ := List.forall_mem_cons.mp hw
    cases w with
    | nil =>
      have hends : ¬ Continues c cs := by
        cases cs with
        | nil => exact id
        | cons d cs =>
          have hd : d.isAlphanum = false := hcs d rfl
          exact fun h => by simp [h.1] at hd
      exact split_cons_of_not_continues (halnum c hc) hends
    | cons d w =>
      have hnext := ih (by simp) hw
      obtain ⟨v, vs, hsplit, hcons⟩ := split_cons_of_continues (halnum c hc)
        (hp c d (w ++ cs) hc (hw d List.mem_cons_self))
      rw [List.cons_append] at hnext
      obtain ⟨rfl, rfl⟩ := List.cons_eq_cons.mp (hsplit.symm.trans hnext)
      exact hcons

theorem split_append_of_isPlain (h : IsPlain w) (cs : List Char)
    (hcs : ∀ c ∈ cs.head?, c.isAlphanum = false) :
    split (w ++ cs) = w :: split cs := by
  obtain ⟨hne, hw | hw⟩ := h
  · exact split_append (fun _ => isAlphanum_of_isLower)
      (fun c d cs hc hd => (continues_cons_iff_of_isLower hc).mpr hd) hne hw hcs
  · exact split_append (fun _ => isAlphanum_of_isDigit)
      (fun c d cs hc hd => (continues_cons_iff_of_isDigit hc).mpr hd) hne hw hcs

/-- Plain words are read as they were joined. -/
theorem split_intercalate {separator : Char} (hs : separator.isAlphanum = false)
    (hwords : ∀ w ∈ words, IsPlain w) : split ([separator].intercalate words) = words := by
  induction words with
  | nil => simp [split]
  | cons w words ih =>
    obtain ⟨hw, hwords⟩ := List.forall_mem_cons.mp hwords
    cases words with
    | nil =>
      have hsplit := split_append_of_isPlain hw [] (by simp)
      simpa [split] using hsplit
    | cons v words =>
      rw [List.intercalate_cons_cons, List.append_assoc, List.singleton_append,
        split_append_of_isPlain hw _ (by simpa using hs), split_cons_of_not_isAlphanum hs,
        ih hwords]

theorem first_letters_or_digits (cs : List Char) :
    (∀ c ∈ first cs, c.isAlpha) ∨ ∀ c ∈ first cs, c.isDigit := by
  have hcap : ∀ c ∈ cs.takeWhile Char.isUpper, c.isAlpha :=
    fun c hc => by simp [Char.isAlpha, List.mem_takeWhile_imp hc]
  have hsmall : ∀ c ∈ (cs.dropWhile Char.isUpper).takeWhile Char.isLower, c.isAlpha :=
    fun c hc => by simp [Char.isAlpha, List.mem_takeWhile_imp hc]
  simp only [first]
  split
  · exact .inr fun c hc => List.mem_takeWhile_imp hc
  · exact .inl hcap
  · exact .inl hsmall
  · next d hd _ =>
    rw [hd] at hcap
    exact .inl (List.forall_mem_cons.mpr ⟨hcap d List.mem_cons_self, hsmall⟩)
  · exact .inl fun c hc => hcap c (List.mem_of_mem_dropLast hc)

theorem toLower_of_isDigit (h : c.isDigit) : c.toLower = c :=
  Char.toLower_eq_of_not_isUpper (not_isUpper_of_isDigit h)

theorem toLower_of_isLower (h : c.isLower) : c.toLower = c :=
  Char.toLower_eq_of_not_isUpper (by simp [not_isUpper_of_isLower h])

/-- Lower case makes the words of any name plain. -/
theorem isPlain_of_mem_lowered_split (cs : List Char) : ∀ w ∈ lowered (split cs), IsPlain w := by
  rw [lowered, List.forall_mem_map]
  intro w hw
  refine ⟨by simpa using (isWord_of_mem_split w hw).1, ?_⟩
  have hkind := forall_mem_split (P := fun w => (∀ c ∈ w, c.isAlpha) ∨ ∀ c ∈ w, c.isDigit)
    (fun cs _ => first_letters_or_digits cs) cs w hw
  rcases hkind with h | h
  · refine .inl (List.forall_mem_map.mpr fun c hc => ?_)
    simpa using h c hc
  · refine .inr (List.forall_mem_map.mpr fun c hc => ?_)
    rw [toLower_of_isDigit (h c hc)]
    exact h c hc

theorem lowered_of_isPlain (h : ∀ w ∈ words, IsPlain w) : lowered words = words := by
  refine (List.map_congr_left fun w hw => ?_).trans (List.map_id words)
  refine (List.map_congr_left fun c hc => ?_).trans (List.map_id w)
  rcases (h w hw).2 with hw | hw
  · exact toLower_of_isLower (hw c hc)
  · exact toLower_of_isDigit (hw c hc)

end GrammarRules.Words

namespace GrammarRules.Name

def IsCanonical (mode : Mode) (name : String) : Prop :=
  ∃ words, (∀ w ∈ words, Words.IsPlain w) ∧ name.toList = [mode.separator].intercalate words

theorem toList_normalize (mode : Mode) (name : String) :
    (normalize mode name).toList = [mode.separator].intercalate (key name) := by
  rw [normalize, String.toList_ofList]
  rfl

/-- A written name has the words of the name, in lower case. -/
theorem key_normalize (mode : Mode) (name : String) : key (normalize mode name) = key name := by
  have hplain := Words.isPlain_of_mem_lowered_split name.toList
  rw [key, toList_normalize, key, Words.split_intercalate mode.separator_not_isAlphanum hplain,
    Words.lowered_of_isPlain hplain]

theorem normalize_eq_self_iff (mode : Mode) (name : String) :
    normalize mode name = name ↔ IsCanonical mode name := by
  constructor
  · intro h
    refine ⟨key name, Words.isPlain_of_mem_lowered_split name.toList, ?_⟩
    rw [← toList_normalize, h]
  · rintro ⟨words, hwords, hname⟩
    rw [← String.toList_inj, toList_normalize, key, hname,
      Words.split_intercalate mode.separator_not_isAlphanum hwords,
      Words.lowered_of_isPlain hwords]

theorem map_toLower_words_eq_iff (a b : String) :
    (words a).map String.toLower = (words b).map String.toLower ↔ key a = key b := by
  have hlower : ∀ name, (words name).map String.toLower = (key name).map String.ofList := by
    intro name
    rw [words, key, Words.lowered, List.map_map, List.map_map]
    refine List.map_congr_left fun w _ => ?_
    rw [← String.toList_inj]
    simp [String.toLower, String.toList_map]
  rw [hlower, hlower, List.map_inj_right fun _ _ => String.ofList_inj.mp]

/-- Writing a written name again gives what the name itself gives, in either notation. A name is
written as nothing only if it has no letter or digit, and as it is spelled only if it is canonical.
Both notations take the same names for one another: those with the same words in lower case. -/
theorem normalize_canonical (a b : String) (mode mode' : Mode) :
    normalize mode' (normalize mode a) = normalize mode' a ∧
    (normalize mode a = "" ↔ ¬ ∃ c ∈ a.toList, c.isAlphanum) ∧
    (normalize mode a = a ↔ IsCanonical mode a) ∧
    (kebab a = kebab b ↔ snake a = snake b) ∧
    (snake a = snake b ↔ (words a).map String.toLower = (words b).map String.toLower) := by
  refine ⟨?_, ?_, normalize_eq_self_iff mode a, kebab_eq_iff_snake_eq a b, ?_⟩
  · rw [normalize_eq_iff, key_normalize]
  · rw [normalize_eq_empty_iff]
    simp
  · rw [map_toLower_words_eq_iff, snake, snake, normalize_eq_iff]

end GrammarRules.Name
