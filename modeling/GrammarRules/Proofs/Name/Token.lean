import GrammarRules.Proofs.Name.Words

/-!
# Tokens

The token of a name that is not blank is not empty and holds small letters, digits and the
separator only. In GBNF the entry name is written like any other name of its spelling; in Lark EBNF
it alone is written `start`, while its other spellings are written `root`.
-/

namespace GrammarRules.Name

def isTokenChar (c : Char) : Bool := c.isLower || c.isDigit || c = '-' || c = '_'

theorem isTokenChar_of_mem_join (mode : Mode) {words : List (List Char)}
    (hw : ∀ w ∈ words, Words.IsWord w) {c : Char} (hc : c ∈ Words.join mode.separator words) :
    isTokenChar c := by
  have hs : isTokenChar mode.separator := by cases mode <;> decide
  have hword : ∀ v ∈ Words.lowered words, c ∈ v → isTokenChar c := by
    intro v hv hcv
    rcases (Words.mem_lowered_spec hw hv).2 c hcv with h | h <;> simp [isTokenChar, h]
  rw [Words.join_eq_intercalate_lowered] at hc
  generalize Words.lowered words = vs at hc hword
  induction vs with
  | nil => simp at hc
  | cons v vs ih =>
    cases vs with
    | nil => exact hword v (by simp) (by simpa using hc)
    | cons u us =>
      simp only [List.intercalate_cons_cons, List.mem_append, List.mem_singleton] at hc
      rcases hc with (hc | rfl) | hc
      · exact hword v (by simp) hc
      · exact hs
      · exact ih hc fun w hw => hword w (List.mem_cons_of_mem v hw)

theorem isTokenChar_of_mem_token (mode : Mode) {name : String} {c : Char}
    (hc : c ∈ (token mode name).toList) : isTokenChar c := by
  by_cases hr : name = root
  · have hall : mode.entryToken.toList.all isTokenChar := by cases mode <;> decide
    rw [token, if_pos hr] at hc
    exact List.all_eq_true.mp hall c hc
  · rw [token, if_neg hr, normalize, String.toList_ofList] at hc
    exact isTokenChar_of_mem_join mode Words.isWord_of_mem_split hc

theorem token_ne_empty (mode : Mode) {name : String} (h : isBlank name = false) :
    token mode name ≠ "" := by
  by_cases hr : name = root
  · rw [token, if_pos hr]
    cases mode <;> decide
  · rw [token, if_neg hr, Ne, normalize_eq_empty_iff, ← isBlank_iff, h]
    decide

theorem kebab_root : kebab root = root := by cbv

theorem snake_root : snake root = root := by cbv

/-- In GBNF the entry point needs no exception. -/
theorem token_gbnf (name : String) : token .gbnf name = kebab name := by
  by_cases hr : name = root
  · rw [token, if_pos hr, hr, kebab_root]
    rfl
  · rw [token, if_neg hr, kebab]

theorem token_gbnf_eq_iff (a b : String) : token .gbnf a = token .gbnf b ↔ snake a = snake b := by
  rw [token_gbnf, token_gbnf, kebab_eq_iff_snake_eq]

theorem token_ebnf_root : token .ebnf root = "start" := rfl

theorem token_ebnf_of_ne {name : String} (h : name ≠ root) : token .ebnf name = snake name := by
  rw [token, if_neg h, snake]

/-- The two notations agree on which name of `names` a name stands for, but for the other
spellings of `root` and the spellings of `start`. -/
theorem exists_token_eq_gbnf_not_ebnf_iff {names : List String} (hroot : root ∈ names)
    (name : String) :
    ((∃ key ∈ names, token .gbnf key = token .gbnf name) ∧
        ¬ ∃ key ∈ names, token .ebnf key = token .ebnf name) ↔
      (name ≠ root ∧ snake name = root) ∧ ∀ key ∈ names, key ≠ root → snake key ≠ root := by
  simp only [token_gbnf_eq_iff]
  constructor
  · rintro ⟨⟨key, hkey, heq⟩, hno⟩
    have hne : name ≠ root := fun h => hno ⟨root, hroot, by rw [h]⟩
    rw [token_ebnf_of_ne hne] at hno
    have hkeyroot : key = root := by
      by_contra hk
      exact hno ⟨key, hkey, by rw [token_ebnf_of_ne hk, heq]⟩
    have hname : snake name = root := by rw [← heq, hkeyroot, snake_root]
    refine ⟨⟨hne, hname⟩, fun k hk hkr hs => hno ⟨k, hk, ?_⟩⟩
    rw [token_ebnf_of_ne hkr, hs, hname]
  · rintro ⟨⟨hne, hname⟩, hno⟩
    refine ⟨⟨root, hroot, by rw [snake_root, hname]⟩, ?_⟩
    rintro ⟨key, hkey, heq⟩
    rw [token_ebnf_of_ne hne, hname] at heq
    by_cases hk : key = root
    · rw [hk, token_ebnf_root] at heq
      exact absurd heq (by decide)
    · exact hno key hkey hk (by rw [← token_ebnf_of_ne hk, heq])

theorem exists_token_eq_ebnf_not_gbnf_iff {names : List String} (hroot : root ∈ names)
    (name : String) :
    ((∃ key ∈ names, token .ebnf key = token .ebnf name) ∧
        ¬ ∃ key ∈ names, token .gbnf key = token .gbnf name) ↔
      snake name = "start" ∧ ∀ key ∈ names, snake key ≠ "start" := by
  simp only [token_gbnf_eq_iff]
  constructor
  · rintro ⟨⟨key, hkey, heq⟩, hno⟩
    have hne : name ≠ root := fun h => hno ⟨root, hroot, by rw [h]⟩
    rw [token_ebnf_of_ne hne] at heq
    have hkeyroot : key = root := by
      by_contra hk
      exact hno ⟨key, hkey, by rw [← heq, token_ebnf_of_ne hk]⟩
    have hname : snake name = "start" := by rw [← heq, hkeyroot, token_ebnf_root]
    exact ⟨hname, fun k hk hs => hno ⟨k, hk, by rw [hs, hname]⟩⟩
  · rintro ⟨hname, hno⟩
    have hne : name ≠ root := by
      rintro rfl
      rw [snake_root] at hname
      exact absurd hname (by decide)
    refine ⟨⟨root, hroot, by rw [token_ebnf_root, token_ebnf_of_ne hne, hname]⟩, ?_⟩
    rintro ⟨key, hkey, heq⟩
    exact hno key hkey (heq.trans hname)

end GrammarRules.Name
