import GrammarRules.Proofs.Name.Words

/-!
# Where words end

The reader of words takes the longest word that starts at a place, with an exception for acronyms.
Where a word ends can also be told from the place itself: between two neighbouring letters or digits
a word ends if just one of them is a digit, if the first is small and the second a capital, or if
both are capitals and a small letter comes next. `Continues` is this rule. One more character in
front of a text joins the first word exactly if it continues, and is a word of its own otherwise.
-/

namespace GrammarRules.Words

/-- A word ends between the neighbours `x` and `y`, where `next` is the character after them. -/
def Breaks (x y : Char) (next : Option Char) : Prop :=
  (x.isDigit ∧ y.isAlpha) ∨ (x.isAlpha ∧ y.isDigit) ∨ (x.isLower ∧ y.isUpper) ∨
    (x.isUpper ∧ y.isUpper ∧ next.any Char.isLower)

/-- The word that the letter or digit `x` stands in goes on with what follows it. -/
def Continues (x : Char) : List Char → Prop
  | [] => False
  | y :: cs => y.isAlphanum ∧ ¬ Breaks x y cs.head?

instance (x y : Char) (next : Option Char) : Decidable (Breaks x y next) :=
  inferInstanceAs (Decidable (_ ∨ _))

instance (x : Char) : (cs : List Char) → Decidable (Continues x cs)
  | [] => inferInstanceAs (Decidable False)
  | _ :: _ => inferInstanceAs (Decidable (_ ∧ _))

variable {x y c : Char} {cs : List Char}

theorem not_isLower_of_isUpper (h : c.isUpper) : c.isLower = false := by
  rw [← Bool.not_eq_true]
  simp only [Char.isLower, Char.isUpper, Bool.and_eq_true, decide_eq_true_eq,
    UInt32.le_iff_toNat_le, ge_iff_le] at h ⊢
  have : 'Z'.val.toNat < 'a'.val.toNat := by decide
  omega

theorem not_isUpper_of_isLower (h : c.isLower) : c.isUpper = false := by
  rw [← Bool.not_eq_true]
  exact fun hu => by simp [not_isLower_of_isUpper hu] at h

theorem not_isLower_of_isDigit (h : c.isDigit) : c.isLower = false := by
  rw [← Bool.not_eq_true]
  simp only [Char.isDigit, Char.isLower, Bool.and_eq_true, decide_eq_true_eq,
    UInt32.le_iff_toNat_le, ge_iff_le] at h ⊢
  have : '9'.val.toNat < 'a'.val.toNat := by decide
  omega

/-- A letter or digit is a capital, a small letter or a digit, and only one of them. -/
theorem isAlphanum_cases (h : c.isAlphanum) :
    (c.isUpper ∧ c.isLower = false ∧ c.isDigit = false) ∨
      (c.isUpper = false ∧ c.isLower ∧ c.isDigit = false) ∨
        (c.isUpper = false ∧ c.isLower = false ∧ c.isDigit) := by
  by_cases hd : c.isDigit
  · exact .inr (.inr ⟨by simpa using not_isUpper_of_isDigit hd, not_isLower_of_isDigit hd, hd⟩)
  · by_cases hu : c.isUpper
    · exact .inl ⟨hu, not_isLower_of_isUpper hu, by simpa using hd⟩
    · have hl : c.isLower := by simpa [Char.isAlphanum, Char.isAlpha, hu, hd] using h
      exact .inr (.inl ⟨by simpa using hu, hl, by simpa using hd⟩)

theorem first_of_isDigit (h : c.isDigit) : first (c :: cs) = c :: cs.takeWhile Char.isDigit := by
  have hu : c.isUpper = false := by simpa using not_isUpper_of_isDigit h
  simp [first, h, hu, not_isLower_of_isDigit h]

theorem first_of_isLower (h : c.isLower) : first (c :: cs) = c :: cs.takeWhile Char.isLower := by
  simp [first, h, not_isUpper_of_isLower h]

/-- A capital that no other capital follows begins a small word. -/
theorem first_of_isUpper (hc : c.isUpper) (hcs : ∀ y ∈ cs.head?, y.isUpper = false) :
    first (c :: cs) = c :: cs.takeWhile Char.isLower := by
  cases cs with
  | nil => simp [first, hc]
  | cons y cs =>
    have hy : y.isUpper = false := hcs y rfl
    cases hl : y.isLower <;> simp [first, hc, hy, hl]

/-- The last capital in front of a small letter belongs to the word after it. -/
theorem first_of_acronym_end (hc : c.isUpper) (hy : y.isUpper) (hcs : cs.head?.any Char.isLower) :
    first (c :: y :: cs) = [c] := by
  cases cs with
  | nil => simp at hcs
  | cons z cs =>
    have hz : z.isLower := by simpa using hcs
    simp [first, hc, hy, hz, not_isUpper_of_isLower hz]

/-- The other capitals of an acronym stay together. -/
theorem first_of_acronym (hc : c.isUpper) (hy : y.isUpper)
    (hcs : ¬ cs.head?.any Char.isLower) : first (c :: y :: cs) = c :: first (y :: cs) := by
  cases cs with
  | nil => simp [first, hc, hy]
  | cons z cs =>
    have hl : z.isLower = false := by simpa using hcs
    cases hu : z.isUpper with
    | false => simp [first, hc, hy, hu, hl]
    | true =>
      cases hsmall : (cs.dropWhile Char.isUpper).takeWhile Char.isLower <;>
        simp [first, hc, hy, hu, hsmall]

theorem continues_cons_iff_of_isDigit (hc : c.isDigit) : Continues c (y :: cs) ↔ y.isDigit := by
  simp only [Continues, Breaks, Char.isAlphanum, Char.isAlpha]
  grind [not_isUpper_of_isDigit, not_isLower_of_isDigit, not_isLower_of_isUpper]

theorem continues_cons_iff_of_isLower (hc : c.isLower) : Continues c (y :: cs) ↔ y.isLower := by
  simp only [Continues, Breaks, Char.isAlphanum, Char.isAlpha]
  grind [not_isUpper_of_isDigit, not_isLower_of_isDigit, not_isLower_of_isUpper]

theorem continues_cons_iff_of_isUpper (hc : c.isUpper) :
    Continues c (y :: cs) ↔ y.isLower ∨ (y.isUpper ∧ ¬ cs.head?.any Char.isLower) := by
  simp only [Continues, Breaks, Char.isAlphanum, Char.isAlpha]
  grind [not_isUpper_of_isDigit, not_isLower_of_isDigit, not_isLower_of_isUpper]

theorem first_cons_of_continues (hc : c.isAlphanum) (h : Continues c cs) :
    first (c :: cs) = c :: first cs := by
  cases cs with
  | nil => exact h.elim
  | cons y cs =>
    rcases isAlphanum_cases hc with ⟨hu, -, -⟩ | ⟨-, hl, -⟩ | ⟨-, -, hd⟩
    · rcases (continues_cons_iff_of_isUpper hu).mp h with hy | ⟨hy, hcs⟩
      · have hyu : ∀ y' ∈ (y :: cs).head?, y'.isUpper = false := by
          simpa using not_isUpper_of_isLower hy
        rw [first_of_isUpper hu hyu, first_of_isLower hy, List.takeWhile_cons_of_pos hy]
      · exact first_of_acronym hu hy hcs
    · have hy : y.isLower := (continues_cons_iff_of_isLower hl).mp h
      rw [first_of_isLower hl, first_of_isLower hy, List.takeWhile_cons_of_pos hy]
    · have hy : y.isDigit := (continues_cons_iff_of_isDigit hd).mp h
      rw [first_of_isDigit hd, first_of_isDigit hy, List.takeWhile_cons_of_pos hy]

theorem first_cons_of_not_continues (hc : c.isAlphanum) (h : ¬ Continues c cs) :
    first (c :: cs) = [c] := by
  cases cs with
  | nil =>
    rcases isAlphanum_cases hc with ⟨hu, hl, hd⟩ | ⟨hu, hl, hd⟩ | ⟨hu, hl, hd⟩ <;>
      simp [first, hu, hl, hd]
  | cons y cs =>
    rcases isAlphanum_cases hc with ⟨hu, -, -⟩ | ⟨-, hl, -⟩ | ⟨-, -, hd⟩
    · rw [continues_cons_iff_of_isUpper hu, not_or, not_and, not_not] at h
      obtain ⟨hyl, hcs⟩ := h
      by_cases hyu : y.isUpper
      · exact first_of_acronym_end hu hyu (hcs hyu)
      · rw [first_of_isUpper hu (by simpa using hyu), List.takeWhile_cons_of_neg hyl]
    · rw [continues_cons_iff_of_isLower hl] at h
      rw [first_of_isLower hl, List.takeWhile_cons_of_neg h]
    · rw [continues_cons_iff_of_isDigit hd] at h
      rw [first_of_isDigit hd, List.takeWhile_cons_of_neg h]

/-- A character that continues joins the first word of what follows it. -/
theorem split_cons_of_continues (hc : c.isAlphanum) (h : Continues c cs) :
    ∃ w ws, split cs = w :: ws ∧ split (c :: cs) = (c :: w) :: ws := by
  cases cs with
  | nil => exact h.elim
  | cons y cs =>
    refine ⟨_, _, split_cons_of_isAlphanum cs h.1, ?_⟩
    rw [split_cons_of_isAlphanum (y :: cs) hc, first_cons_of_continues hc h]
    rfl

/-- A character that does not continue is a word of its own in front of the others. -/
theorem split_cons_of_not_continues (hc : c.isAlphanum) (h : ¬ Continues c cs) :
    split (c :: cs) = [c] :: split cs := by
  rw [split_cons_of_isAlphanum cs hc, first_cons_of_not_continues hc h]
  rfl

theorem flatten_split (cs : List Char) : (split cs).flatten = cs.filter Char.isAlphanum := by
  induction cs with
  | nil => simp [split]
  | cons c cs ih =>
    by_cases hc : c.isAlphanum
    · rw [List.filter_cons_of_pos hc, ← ih]
      by_cases h : Continues c cs
      · obtain ⟨w, ws, hcs, hsplit⟩ := split_cons_of_continues hc h
        rw [hsplit, hcs, List.flatten_cons, List.flatten_cons, List.cons_append]
      · rw [split_cons_of_not_continues hc h, List.flatten_cons, List.singleton_append]
    · rw [List.filter_cons_of_neg hc, ← ih, split_cons_of_not_isAlphanum (by simpa using hc)]

/-- The block that place `k` lies in, where blocks of these lengths stand side by side. -/
def blockOf : List Nat → Nat → Nat
  | [], _ => 0
  | n :: ns, k => if k < n then 0 else blockOf ns (k - n) + 1

def wordOf (cs : List Char) (i : Nat) : Nat :=
  blockOf ((split cs).map List.length) ((cs.take i).countP Char.isAlphanum)

theorem wordOf_zero (cs : List Char) : wordOf cs 0 = 0 := by
  rw [wordOf, List.take_zero, List.countP_nil]
  cases hsplit : split cs with
  | nil => rfl
  | cons w ws =>
    have hmem : w ∈ split cs := by simp [hsplit]
    have hw : w ≠ [] := (isWord_of_mem_split w hmem).1
    simp [blockOf, List.length_pos_iff.mpr hw]

/-- The number of words that end before a place tells the word at the place. -/
theorem wordOf_cons_succ (c : Char) (cs : List Char) (i : Nat) :
    wordOf (c :: cs) (i + 1) =
      wordOf cs i + if c.isAlphanum ∧ ¬ Continues c cs then 1 else 0 := by
  simp only [wordOf, List.take_succ_cons, List.countP_cons]
  by_cases hc : c.isAlphanum
  · by_cases h : Continues c cs
    · obtain ⟨w, ws, hcs, hsplit⟩ := split_cons_of_continues hc h
      simp [hsplit, hcs, hc, h, blockOf]
    · simp [split_cons_of_not_continues hc h, hc, h, blockOf]
  · simp [split_cons_of_not_isAlphanum (by simpa using hc), hc]

theorem wordOf_succ {i : Nat} (h : cs[i]? = some x) :
    wordOf cs (i + 1) =
      wordOf cs i + if x.isAlphanum ∧ ¬ Continues x (cs.drop (i + 1)) then 1 else 0 := by
  induction cs generalizing i with
  | nil => simp at h
  | cons c cs ih =>
    cases i with
    | zero =>
      obtain rfl : c = x := by simpa using h
      rw [wordOf_cons_succ, wordOf_zero, wordOf_zero]
      rfl
    | succ i =>
      rw [wordOf_cons_succ, wordOf_cons_succ, ih (by simpa using h), List.drop_succ_cons]
      omega

theorem wordOf_mono (cs : List Char) : Monotone (wordOf cs) := by
  refine monotone_nat_of_le_succ fun i => ?_
  cases h : cs[i]? with
  | none =>
    have hlength : cs.length ≤ i := List.getElem?_eq_none_iff.mp h
    rw [wordOf, wordOf, List.take_of_length_le hlength, List.take_of_length_le (by omega)]
  | some x =>
    rw [wordOf_succ h]
    exact Nat.le_add_right _ _

/-- A word ends where another character follows, or where the boundary rule says so. -/
theorem wordOf_succ_of_getElem? {i : Nat} (hx : cs[i]? = some x) (hy : cs[i + 1]? = some y)
    (halnum : x.isAlphanum) :
    wordOf cs (i + 1) = wordOf cs i + if y.isAlphanum ∧ ¬ Breaks x y cs[i + 2]? then 0 else 1 := by
  have hdrop : cs.drop (i + 1) = y :: cs.drop (i + 2) := by
    obtain ⟨hi, rfl⟩ := List.getElem?_eq_some_iff.mp hy
    exact List.drop_eq_getElem_cons hi
  have hcontinues : Continues x (cs.drop (i + 1)) ↔ y.isAlphanum ∧ ¬ Breaks x y cs[i + 2]? := by
    rw [hdrop, Continues, List.head?_drop]
  rw [wordOf_succ hx]
  by_cases h : y.isAlphanum ∧ ¬ Breaks x y cs[i + 2]? <;> simp only [halnum, hcontinues, h]
  · simp
  · simp

/-- Between a letter or digit and a later character that is none, a word ends. -/
theorem wordOf_lt_of_separated {i k : Nat} {z : Char} (hik : i < k) (hx : cs[i]? = some x)
    (hz : cs[k]? = some z) (hxalnum : x.isAlphanum) (hzalnum : z.isAlphanum = false) :
    wordOf cs i < wordOf cs k := by
  obtain ⟨d, rfl⟩ := Nat.exists_eq_add_of_lt hik
  induction d generalizing i x with
  | zero =>
    rw [Nat.add_zero] at hz
    rw [Nat.add_zero, wordOf_succ_of_getElem? hx hz hxalnum, hzalnum]
    simp
  | succ d ih =>
    have hlength : i + 1 < cs.length := by
      have := (List.getElem?_eq_some_iff.mp hz).1
      omega
    have hy : cs[i + 1]? = some cs[i + 1] := List.getElem?_eq_getElem hlength
    have hnext := wordOf_succ_of_getElem? hx hy hxalnum
    have hadd : i + (d + 1) + 1 = i + 1 + d + 1 := by omega
    rw [hadd] at hz ⊢
    by_cases hyalnum : cs[i + 1].isAlphanum
    · have hrest := ih hy hyalnum (by omega) hz
      omega
    · rw [if_neg fun h => hyalnum h.1] at hnext
      have hrest : wordOf cs (i + 1) ≤ wordOf cs (i + 1 + d + 1) := wordOf_mono cs (by omega)
      omega

theorem exists_word_of_getElem? {i : Nat} (h : cs[i]? = some x) (hx : x.isAlphanum) :
    ∃ w, (split cs)[wordOf cs i]? = some w ∧ x ∈ w := by
  induction cs generalizing i with
  | nil => simp at h
  | cons c cs ih =>
    cases i with
    | zero =>
      obtain rfl : c = x := by simpa using h
      rw [wordOf_zero]
      by_cases hc : Continues c cs
      · obtain ⟨w, ws, -, hsplit⟩ := split_cons_of_continues hx hc
        exact ⟨c :: w, by simp [hsplit], List.mem_cons_self⟩
      · exact ⟨[c], by simp [split_cons_of_not_continues hx hc], List.mem_cons_self⟩
    | succ i =>
      obtain ⟨w, hw, hmem⟩ := ih (by simpa using h)
      rw [wordOf_cons_succ]
      by_cases hc : c.isAlphanum
      · by_cases hcontinues : Continues c cs
        · obtain ⟨v, ws, hcs, hsplit⟩ := split_cons_of_continues hc hcontinues
          rw [hcs] at hw
          rw [hsplit, if_neg fun h => h.2 hcontinues, Nat.add_zero]
          cases hn : wordOf cs i with
          | zero =>
            rw [hn] at hw
            obtain rfl : v = w := by simpa using hw
            exact ⟨c :: v, rfl, List.mem_cons_of_mem c hmem⟩
          | succ n =>
            rw [hn] at hw
            exact ⟨w, hw, hmem⟩
        · rw [split_cons_of_not_continues hc hcontinues, if_pos ⟨hc, hcontinues⟩]
          exact ⟨w, hw, hmem⟩
      · rw [split_cons_of_not_isAlphanum (by simpa using hc), if_neg fun h => hc h.1]
        exact ⟨w, hw, hmem⟩

end GrammarRules.Words

namespace GrammarRules.Name

/-- The number of the word that holds the letter or digit at place `i` of a name: the words hold
the letters and digits one after the other. -/
def wordOf (name : String) (i : Nat) : Nat :=
  Words.blockOf ((words name).map String.length) ((name.toList.take i).countP Char.isAlphanum)

theorem wordOf_eq (name : String) : wordOf name = Words.wordOf name.toList := by
  funext i
  rw [wordOf, words, List.map_map, Words.wordOf]
  refine congrArg (Words.blockOf · _) (List.map_congr_left fun w _ => ?_)
  simp

/-- The words of a name hold its letters and digits, each once and in their order. Where one
follows another, a word ends between them exactly if the boundary rule says so, and between two that
have another character between them a word always ends. -/
theorem words_end_at_boundaries (name : String) :
    String.join (words name) = String.ofList (name.toList.filter Char.isAlphanum) ∧
    (∀ w ∈ words name, w ≠ "") ∧
    (∀ i x, name.toList[i]? = some x → x.isAlphanum →
      ∃ w, (words name)[wordOf name i]? = some w ∧ x ∈ w.toList) ∧
    (∀ i x y, name.toList[i]? = some x → name.toList[i + 1]? = some y →
      x.isAlphanum → y.isAlphanum →
        (wordOf name i ≠ wordOf name (i + 1) ↔ Words.Breaks x y name.toList[i + 2]?)) ∧
    ∀ i k j x z y, i < k → k < j →
      name.toList[i]? = some x → name.toList[k]? = some z → name.toList[j]? = some y →
        x.isAlphanum → z.isAlphanum = false → y.isAlphanum → wordOf name i ≠ wordOf name j := by
  rw [wordOf_eq]
  refine ⟨?_, fun w hw => ?_, fun i x hx halnum => ?_, fun i x y hx hy hxalnum hyalnum => ?_,
    fun i k j x z y hik hkj hx hz _ hxalnum hzalnum _ => ?_⟩
  · rw [← String.toList_inj, String.toList_join, words, List.flatMap_map, String.toList_ofList,
      ← Words.flatten_split]
    simp
  · obtain ⟨v, hv, rfl⟩ := List.mem_map.mp hw
    rw [Ne, String.ofList_eq_empty_iff]
    exact (Words.isWord_of_mem_split v hv).1
  · obtain ⟨w, hw, hmem⟩ := Words.exists_word_of_getElem? hx halnum
    refine ⟨String.ofList w, ?_, by simpa using hmem⟩
    rw [words, List.getElem?_map, hw, Option.map_some]
  · rw [Words.wordOf_succ_of_getElem? hx hy hxalnum]
    by_cases h : Words.Breaks x y name.toList[i + 2]? <;> simp [h, hyalnum]
  · have hlt := Words.wordOf_lt_of_separated hik hx hz hxalnum hzalnum
    have hle := Words.wordOf_mono name.toList hkj.le
    exact (hlt.trans_le hle).ne

theorem acronym_words_end_at_boundaries :
    words "XMLHttp2-x" = ["XML", "Http", "2", "x"] ∧
      wordOf "XMLHttp2-x" 2 ≠ wordOf "XMLHttp2-x" 3 ∧
      wordOf "XMLHttp2-x" 1 = wordOf "XMLHttp2-x" 2 ∧
      wordOf "XMLHttp2-x" 7 ≠ wordOf "XMLHttp2-x" 9 := by
  obtain ⟨-, -, -, hneighbours, hseparated⟩ := words_end_at_boundaries "XMLHttp2-x"
  have hend := hneighbours 2 'L' 'H' (by decide) (by decide) (by decide) (by decide)
  have hinside := hneighbours 1 'M' 'L' (by decide) (by decide) (by decide) (by decide)
  have hsmall : "XMLHttp2-x".toList[2 + 2]? = some 't' := by decide
  have hcapital : "XMLHttp2-x".toList[1 + 2]? = some 'H' := by decide
  rw [hsmall] at hend
  rw [hcapital] at hinside
  refine ⟨by cbv, hend.mpr (by decide), ?_, ?_⟩
  · by_contra h
    exact absurd (hinside.mp h) (by decide)
  · exact hseparated 7 8 9 '2' '-' 'x' (by decide) (by decide) (by decide) (by decide)
      (by decide) (by decide) (by decide) (by decide)

end GrammarRules.Name
