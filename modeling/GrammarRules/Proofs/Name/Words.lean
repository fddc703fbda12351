import Mathlib
import GrammarRules.Name

/-!
# Words and the names they are written as

The words of a name are runs of ASCII letters and digits, and a name has no word only if it has no
such character. Lower-case words determine the written name and are determined by it, whichever
separator stands between them, so two names that are written alike in one notation are written
alike in the other.
-/

namespace GrammarRules.Words

variable {cs : List Char} {c : Char}

theorem isAlphanum_of_isUpper (h : c.isUpper) : c.isAlphanum := by
  simp [Char.isAlphanum, Char.isAlpha, h]

theorem isAlphanum_of_isLower (h : c.isLower) : c.isAlphanum := by
  simp [Char.isAlphanum, Char.isAlpha, h]

theorem isAlphanum_of_isDigit (h : c.isDigit) : c.isAlphanum := by
  simp [Char.isAlphanum, h]

theorem isAlphanum_of_mem_first (h : c ∈ first cs) : c.isAlphanum := by
  have hcap : c ∈ cs.takeWhile Char.isUpper → c.isAlphanum :=
    fun hc => isAlphanum_of_isUpper (List.mem_takeWhile_imp hc)
  have hsmall : c ∈ (cs.dropWhile Char.isUpper).takeWhile Char.isLower → c.isAlphanum :=
    fun hc => isAlphanum_of_isLower (List.mem_takeWhile_imp hc)
  simp only [first] at h
  split at h
  · exact isAlphanum_of_isDigit (List.mem_takeWhile_imp h)
  · exact hcap h
  · exact hsmall h
  · next d hd _ =>
    rw [hd] at hcap
    rcases List.mem_cons.mp h with rfl | h
    · exact hcap (by simp)
    · exact hsmall h
  · exact hcap (List.mem_of_mem_dropLast h)

theorem first_of_not_isAlphanum (h : c.isAlphanum = false) : first (c :: cs) = [] := by
  simp only [Char.isAlphanum, Char.isAlpha, Bool.or_eq_false_iff] at h
  obtain ⟨⟨hu, hl⟩, hd⟩ := h
  simp [first, hu, hl, hd]

/-- A word starts wherever an ASCII letter or digit stands. -/
theorem exists_first_eq_cons (cs : List Char) (h : c.isAlphanum) :
    ∃ w, first (c :: cs) = c :: w := by
  by_cases hu : c.isUpper
  · cases ht : cs.takeWhile Char.isUpper <;>
      cases hs : (cs.dropWhile Char.isUpper).takeWhile Char.isLower <;>
      simp [first, hu, ht, hs]
  · by_cases hl : c.isLower
    · simp [first, hu, hl]
    · have hd : c.isDigit := by simpa [Char.isAlphanum, Char.isAlpha, hu, hl] using h
      simp [first, hu, hl, hd]

theorem split_cons_of_not_isAlphanum (h : c.isAlphanum = false) : split (c :: cs) = split cs := by
  rw [split, first_of_not_isAlphanum h]

theorem split_cons_of_isAlphanum (cs : List Char) (h : c.isAlphanum) : split (c :: cs) =
    first (c :: cs) :: split ((c :: cs).drop (first (c :: cs)).length) := by
  obtain ⟨w, hw⟩ := exists_first_eq_cons cs h
  rw [split, hw]
  rfl

/-- What holds of every first word holds of all words. -/
theorem forall_mem_split {P : List Char → Prop} (h : ∀ cs, first cs ≠ [] → P (first cs))
    (cs : List Char) : ∀ w ∈ split cs, P w := by
  induction hn : cs.length using Nat.strongRecOn generalizing cs with
  | ind n ih =>
    cases cs with
    | nil => simp [split]
    | cons c cs =>
      rw [List.length_cons] at hn
      by_cases hc : c.isAlphanum
      · obtain ⟨w, hw⟩ := exists_first_eq_cons cs hc
        rw [split_cons_of_isAlphanum cs hc, List.forall_mem_cons]
        refine ⟨h _ (by simp [hw]), ih _ ?_ _ rfl⟩
        rw [hw, List.length_drop, List.length_cons, List.length_cons]
        omega
      · rw [split_cons_of_not_isAlphanum (by simpa using hc)]
        exact ih cs.length (by omega) cs rfl

def IsWord (w : List Char) : Prop := w ≠ [] ∧ ∀ c ∈ w, c.isAlphanum

theorem isWord_of_mem_split : ∀ w ∈ split cs, IsWord w :=
  forall_mem_split (fun _ hne => ⟨hne, fun _ => isAlphanum_of_mem_first⟩) cs

theorem split_eq_nil_iff : split cs = [] ↔ ∀ c ∈ cs, c.isAlphanum = false := by
  induction cs with
  | nil => simp [split]
  | cons c cs ih =>
    by_cases hc : c.isAlphanum
    · simp [split_cons_of_isAlphanum cs hc, hc]
    · rw [split_cons_of_not_isAlphanum (by simpa using hc), ih]
      simp [hc]

def lowered (words : List (List Char)) : List (List Char) := words.map (·.map Char.toLower)

theorem join_eq_intercalate_lowered (separator : Char) (words : List (List Char)) :
    join separator words = [separator].intercalate (lowered words) := rfl

theorem not_isUpper_of_isDigit (h : c.isDigit) : ¬ c.isUpper := by
  simp only [Char.isDigit, Char.isUpper, Bool.and_eq_true, decide_eq_true_eq,
    UInt32.le_iff_toNat_le, ge_iff_le] at h ⊢
  have : '9'.val.toNat < 'A'.val.toNat := by decide
  omega

theorem isLower_or_isDigit_toLower (h : c.isAlphanum) : c.toLower.isLower ∨ c.toLower.isDigit := by
  simp only [Char.isAlphanum, Bool.or_eq_true] at h
  rcases h with ha | hd
  · exact Or.inl (by simpa using ha)
  · rw [Char.toLower_eq_of_not_isUpper (not_isUpper_of_isDigit hd)]
    exact Or.inr hd

variable {words words' : List (List Char)}

theorem mem_lowered_spec (hw : ∀ w ∈ words, IsWord w) {v : List Char} (hv : v ∈ lowered words) :
    v ≠ [] ∧ ∀ c ∈ v, c.isLower ∨ c.isDigit := by
  simp only [lowered, List.mem_map] at hv
  obtain ⟨w, hmem, rfl⟩ := hv
  refine ⟨by simpa using (hw w hmem).1, fun c hc => ?_⟩
  obtain ⟨d, hd, rfl⟩ := List.mem_map.mp hc
  exact isLower_or_isDigit_toLower ((hw w hmem).2 d hd)

theorem join_eq_nil_iff {separator : Char} (hw : ∀ w ∈ words, IsWord w) :
    join separator words = [] ↔ words = [] := by
  cases words with
  | nil => simp [join]
  | cons w ws =>
    have hne : w ≠ [] := (hw w (by simp)).1
    cases ws <;> simp [join, hne]

/-- Nothing but the separator is put between the words, so the words can be read off again. -/
theorem join_inj {separator : Char} (hs : separator.isAlphanum = false)
    (hw : ∀ w ∈ words, IsWord w) (hw' : ∀ w ∈ words', IsWord w) :
    join separator words = join separator words' ↔ lowered words = lowered words' := by
  have hsplit : ∀ {ws}, (∀ w ∈ ws, IsWord w) → ws ≠ [] →
      (join separator ws).splitOn separator = lowered ws := by
    intro ws hws hne
    apply List.splitOn_intercalate
    · intro v hv hmem
      rcases (mem_lowered_spec hws hv).2 separator hmem with h | h
      · simp [isAlphanum_of_isLower h] at hs
      · simp [isAlphanum_of_isDigit h] at hs
    · simpa [lowered] using hne
  constructor
  · intro h
    have hnil : words = [] ↔ words' = [] := by
      rw [← join_eq_nil_iff hw, h, join_eq_nil_iff hw']
    by_cases hne : words = []
    · rw [hne, hnil.mp hne]
    · rw [← hsplit hw hne, ← hsplit hw' (mt hnil.mpr hne), h]
  · intro h
    rw [join_eq_intercalate_lowered, h, join_eq_intercalate_lowered]

end GrammarRules.Words

namespace GrammarRules

theorem Mode.separator_not_isAlphanum (mode : Mode) : mode.separator.isAlphanum = false := by
  cases mode <;> decide

namespace Name

/-- The lower-case words of a name, all that is written of it. -/
def key (name : String) : List (List Char) := Words.lowered (Words.split name.toList)

theorem normalize_eq_iff (mode : Mode) (a b : String) :
    normalize mode a = normalize mode b ↔ key a = key b := by
  rw [normalize, normalize, String.ofList_inj]
  exact Words.join_inj mode.separator_not_isAlphanum Words.isWord_of_mem_split
    Words.isWord_of_mem_split

theorem kebab_eq_iff_snake_eq (a b : String) : kebab a = kebab b ↔ snake a = snake b :=
  (normalize_eq_iff .gbnf a b).trans (normalize_eq_iff .ebnf a b).symm

theorem normalize_eq_empty_iff (mode : Mode) (name : String) :
    normalize mode name = "" ↔ ∀ c ∈ name.toList, c.isAlphanum = false := by
  rw [normalize, String.ofList_eq_empty_iff, Words.join_eq_nil_iff Words.isWord_of_mem_split,
    Words.split_eq_nil_iff]

theorem isBlank_iff (name : String) :
    isBlank name = true ↔ ∀ c ∈ name.toList, c.isAlphanum = false := by
  rw [isBlank, decide_eq_true_iff, kebab, normalize_eq_empty_iff]

theorem not_isBlank_iff (name : String) :
    isBlank name = false ↔ ∃ c ∈ name.toList, c.isAlphanum := by
  rw [← Bool.not_eq_true, isBlank_iff]
  simp

end Name
end GrammarRules
