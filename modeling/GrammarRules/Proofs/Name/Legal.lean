import GrammarRules.Proofs.Name.Token

/-!
# Identifiers of the notations

The token of every name that is not blank is one or more runs of small letters and digits, with the
separator of the notation between neighbours. In GBNF that is an identifier. In Lark EBNF an
identifier must start with a letter besides, and the token does so exactly if the first ASCII letter
or digit of the name is a letter.
-/

namespace GrammarRules.Name

open Computability

def single (p : Char → Bool) : Language Char := {w | ∃ c, p c ∧ w = [c]}

def run (p : Char → Bool) : Language Char := single p * (single p)∗

def isSmall (c : Char) : Bool := c.isLower || c.isDigit

/-- The identifiers of GBNF, for the separator `-`: `[a-z0-9]+(-[a-z0-9]+)*`. -/
def joinedRuns (separator : Char) : Language Char :=
  run isSmall * (({[separator]} : Language Char) * run isSmall)∗

/-- The identifiers of Lark EBNF: `[a-z][a-z0-9_]*`. -/
def larkNames : Language Char := single Char.isLower * (single fun c => isSmall c || c = '_')∗

variable {p : Char → Bool} {w : List Char} {separator : Char} {name : String}

theorem mem_kstar_single : w ∈ (single p)∗ ↔ ∀ c ∈ w, p c := by
  constructor
  · rintro ⟨pieces, rfl, hpieces⟩ c hc
    obtain ⟨piece, hpiece, hc⟩ := List.mem_flatten.mp hc
    obtain ⟨d, hd, rfl⟩ := hpieces piece hpiece
    rwa [List.mem_singleton.mp hc]
  · intro h
    refine ⟨w.map fun c => [c], List.flatMap_singleton' w |>.symm, fun piece hpiece => ?_⟩
    obtain ⟨c, hc, rfl⟩ := List.mem_map.mp hpiece
    exact ⟨c, h c hc, rfl⟩

theorem mem_single_mul_kstar {q : Char → Bool} : w ∈ single p * (single q)∗ ↔
    ∃ c cs, w = c :: cs ∧ p c ∧ ∀ d ∈ cs, q d := by
  rw [Language.mem_mul]
  constructor
  · rintro ⟨_, ⟨c, hc, rfl⟩, cs, hcs, rfl⟩
    exact ⟨c, cs, rfl, hc, mem_kstar_single.mp hcs⟩
  · rintro ⟨c, cs, rfl, hc, hcs⟩
    exact ⟨[c], ⟨c, hc, rfl⟩, cs, mem_kstar_single.mpr hcs, rfl⟩

theorem mem_run : w ∈ run p ↔ w ≠ [] ∧ ∀ c ∈ w, p c := by
  rw [run, mem_single_mul_kstar]
  constructor
  · rintro ⟨c, cs, rfl, hc, hcs⟩
    exact ⟨List.cons_ne_nil c cs, List.forall_mem_cons.mpr ⟨hc, hcs⟩⟩
  · rintro ⟨hne, h⟩
    obtain ⟨c, cs, rfl⟩ := List.exists_cons_of_ne_nil hne
    exact ⟨c, cs, rfl, List.forall_mem_cons.mp h⟩

/-- By induction on the runs after the first. -/
theorem intercalate_mem_joinedRuns (separator : Char) {words : List (List Char)}
    (hw : w ∈ run isSmall) (h : ∀ v ∈ words, v ∈ run isSmall) :
    [separator].intercalate (w :: words) ∈ joinedRuns separator := by
  obtain ⟨rest, hrest, heq⟩ : ∃ rest ∈ (({[separator]} : Language Char) * run isSmall)∗,
      [separator].intercalate (w :: words) = w ++ rest := by
    clear hw
    induction words generalizing w with
    | nil => exact ⟨[], Language.nil_mem_kstar _, by simp⟩
    | cons v words ih =>
      obtain ⟨hv, hwords⟩ := List.forall_mem_cons.mp h
      obtain ⟨_, ⟨pieces, rfl, hpieces⟩, heq⟩ := ih hwords (w := v)
      have hfirst : [separator] ++ v ∈ ({[separator]} : Language Char) * run isSmall :=
        Language.append_mem_mul rfl hv
      refine ⟨_, Language.join_mem_kstar (List.forall_mem_cons.mpr ⟨hfirst, hpieces⟩), ?_⟩
      rw [List.intercalate_cons_cons, heq, List.flatten_cons]
      simp only [List.append_assoc]
  rw [heq]
  exact Language.append_mem_mul hw hrest

theorem forall_mem_of_mem_joinedRuns (hw : w ∈ joinedRuns separator) :
    ∀ c ∈ w, isSmall c ∨ c = separator := by
  obtain ⟨first, hfirst, rest, ⟨pieces, rfl, hpieces⟩, rfl⟩ := Language.mem_mul.mp hw
  intro c hc
  rcases List.mem_append.mp hc with hc | hc
  · exact Or.inl ((mem_run.mp hfirst).2 c hc)
  · obtain ⟨piece, hpiece, hc⟩ := List.mem_flatten.mp hc
    obtain ⟨mark, hmark, v, hv, rfl⟩ := Language.mem_mul.mp (hpieces piece hpiece)
    cases hmark
    rcases List.mem_cons.mp hc with rfl | hc
    · exact Or.inr rfl
    · exact Or.inl ((mem_run.mp hv).2 c hc)

theorem lowered_mem_run {words : List (List Char)} (hwords : ∀ w ∈ words, Words.IsWord w) :
    ∀ v ∈ Words.lowered words, v ∈ run isSmall := by
  intro v hv
  obtain ⟨hne, hchars⟩ := Words.mem_lowered_spec hwords hv
  refine mem_run.mpr ⟨hne, fun c hc => ?_⟩
  simpa [isSmall] using hchars c hc

theorem token_mem_joinedRuns (mode : Mode) (h : isBlank name = false) :
    (token mode name).toList ∈ joinedRuns mode.separator := by
  by_cases hroot : name = root
  · have hchars : mode.entryToken.toList.all isSmall := by cases mode <;> decide
    have hentry : mode.entryToken.toList ∈ run isSmall := by
      refine mem_run.mpr ⟨?_, List.all_eq_true.mp hchars⟩
      cases mode <;> decide
    have hjoined := intercalate_mem_joinedRuns mode.separator hentry
      (List.forall_mem_nil _)
    rw [token, if_pos hroot]
    rwa [List.intercalate_singleton] at hjoined
  · rw [token, if_neg hroot, normalize, String.toList_ofList, Words.join_eq_intercalate_lowered]
    have hruns := lowered_mem_run (@Words.isWord_of_mem_split name.toList)
    cases hwords : Words.lowered (Words.split name.toList) with
    | nil =>
      have hnone : Words.split name.toList = [] := List.map_eq_nil_iff.mp hwords
      rw [Words.split_eq_nil_iff, ← isBlank_iff, h] at hnone
      cases hnone
    | cons v words =>
      rw [hwords] at hruns
      obtain ⟨hv, hwords⟩ := List.forall_mem_cons.mp hruns
      exact intercalate_mem_joinedRuns _ hv hwords

def startsWithLetter (name : String) : Bool :=
  (name.toList.find? Char.isAlphanum).any Char.isAlpha

theorem head?_join_split (separator : Char) (cs : List Char) :
    (Words.join separator (Words.split cs)).head? =
      (cs.find? Char.isAlphanum).map Char.toLower := by
  induction cs with
  | nil => simp [Words.split, Words.join]
  | cons c cs ih =>
    by_cases hc : c.isAlphanum
    · obtain ⟨w, hw⟩ := Words.exists_first_eq_cons cs hc
      rw [Words.split_cons_of_isAlphanum cs hc, hw, List.find?_cons_of_pos hc]
      cases Words.split ((c :: cs).drop (c :: w).length) <;> simp [Words.join]
    · rw [Words.split_cons_of_not_isAlphanum (by simpa using hc), List.find?_cons_of_neg hc, ih]

theorem token_ebnf_mem_larkNames_iff (h : isBlank name = false) :
    (token .ebnf name).toList ∈ larkNames ↔ startsWithLetter name := by
  by_cases hroot : name = root
  · rw [hroot, token_ebnf_root, larkNames, mem_single_mul_kstar]
    have hchars : ['t', 'a', 'r', 't'].all fun c => isSmall c || c = '_' := by decide
    exact iff_of_true ⟨'s', ['t', 'a', 'r', 't'], rfl, rfl, List.all_eq_true.mp hchars⟩ (by decide)
  · have hhead := head?_join_split '_' name.toList
    have hchars := forall_mem_of_mem_joinedRuns (token_mem_joinedRuns .ebnf h)
    rw [token_ebnf_of_ne hroot, snake, normalize, String.toList_ofList] at hchars ⊢
    change ∀ c ∈ Words.join '_' (Words.split name.toList), isSmall c ∨ c = '_' at hchars
    change Words.join '_' (Words.split name.toList) ∈ larkNames ↔ _
    rw [larkNames, mem_single_mul_kstar, startsWithLetter]
    cases hfirst : name.toList.find? Char.isAlphanum with
    | none =>
      rw [List.find?_eq_none] at hfirst
      obtain ⟨c, hc, halpha⟩ := (not_isBlank_iff name).mp h
      exact absurd halpha (hfirst c hc)
    | some c =>
      rw [hfirst, Option.map_some] at hhead
      obtain ⟨cs, hcs⟩ : ∃ cs, Words.join '_' (Words.split name.toList) = c.toLower :: cs :=
        List.head?_eq_some_iff.mp hhead
      rw [hcs] at hchars ⊢
      rw [Option.any_some]
      constructor
      · rintro ⟨d, ds, heq, hlower, -⟩
        obtain ⟨rfl, -⟩ := List.cons.inj heq
        simpa using hlower
      · intro halpha
        refine ⟨c.toLower, cs, rfl, by simpa using halpha, fun d hd => ?_⟩
        simpa using hchars d (List.mem_cons_of_mem _ hd)

end GrammarRules.Name
