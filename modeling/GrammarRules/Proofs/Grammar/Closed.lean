import GrammarRules.Proofs.Grammar.Build
import GrammarRules.Proofs.Name.Token
import GrammarRules.Proofs.Registry.Parts
import GrammarRules.Session

/-!
# Closed texts

A grammar that checks its references is built exactly if, in GBNF, every token it mentions is
defined. The check is the same for the text in Lark EBNF, where the root rule is written `start`.
There a reference to another spelling of `root` passes without a definition, and a reference to a
spelling of `start` is refused although the root rule is written so.
-/

namespace GrammarRules.Grammar

open Registry

variable {g : Grammar} {rules : List (String × Part)}

theorem checkRefs_ofParts (hrules : g.rules = .ofParts rules) (hvalidate : g.options.validate)
    (mode : Mode) : g.checkRefs mode = .ok () ↔ Closed .gbnf rules := by
  rw [checkRefs, if_pos hvalidate, hrules, dangling_ofParts, ← flatMap_missing_eq_nil_iff]
  cases rules.flatMap (missing (ofParts rules).tokens) with
  | nil => simp [bind, Except.bind, pure, Except.pure]
  | cons pair pairs => simp [bind, Except.bind, throw, throwThe, MonadExceptOf.throw]

/-- What building needs, and what it gives. -/
theorem buildIn_eq_ok_iff (hrules : g.rules = .ofParts rules) {mode : Mode} {text : String} :
    g.buildIn mode = .ok text ↔ g.isFinal ∧ (g.options.validate → Closed .gbnf rules) ∧
      text = "\n".intercalate (rules.map (line mode)) := by
  by_cases hfinal : g.isFinal
  · rw [buildIn_of_isFinal hfinal, hrules, render_ofParts]
    by_cases hvalidate : g.options.validate
    · rw [← checkRefs_ofParts hrules hvalidate mode]
      cases g.checkRefs mode <;> simp [bind, Except.bind, hfinal, hvalidate, eq_comm]
    · have hrefs : g.checkRefs mode = .ok () := by
        rw [checkRefs, if_neg hvalidate]
        rfl
      simp [hrefs, bind, Except.bind, hfinal, hvalidate, eq_comm]
  · exact ⟨fun h => absurd (isFinal_of_buildIn h) hfinal, fun h => absurd h.1 hfinal⟩

/-- References without a definition are refused, and the first rule that holds one is blamed. -/
theorem buildIn_eq_error (hrules : g.rules = .ofParts rules) (hfinal : g.isFinal)
    (hvalidate : g.options.validate) (mode : Mode) {rule target : String}
    {more : List (String × String)}
    (h : rules.flatMap (missing (ofParts rules).tokens) = (rule, target) :: more) :
    g.buildIn mode = .error (.grammar
      { fault := .undefinedRefs (sortNames (((rule, target) :: more).map Prod.snd))
        context := some ⟨rule, mode⟩ }) := by
  rw [buildIn_of_isFinal hfinal, checkRefs, if_pos hvalidate, hrules, dangling_ofParts, h]
  rfl

theorem exists_buildIn_eq_ok_iff (hrules : g.rules = .ofParts rules) (hfinal : g.isFinal)
    (hvalidate : g.options.validate) (mode : Mode) :
    (∃ text, g.buildIn mode = .ok text) ↔ Closed .gbnf rules := by
  simp [buildIn_eq_ok_iff hrules, hfinal, hvalidate]

theorem root_mem_of_isFinal (hrules : g.rules = .ofParts rules) (hfinal : g.isFinal) :
    Name.root ∈ rules.map Prod.fst := by
  simpa [isFinal, Registry.contains, hrules] using hfinal

theorem closed_gbnf_not_ebnf_iff (hroot : Name.root ∈ rules.map Prod.fst) :
    Closed .gbnf rules ∧ ¬ Closed .ebnf rules ↔ Closed .gbnf rules ∧
      ∃ name ∈ mentions rules, (name ≠ Name.root ∧ Name.snake name = Name.root) ∧
        ∀ key ∈ rules.map Prod.fst, key ≠ Name.root → Name.snake key ≠ Name.root := by
  apply and_congr_right
  intro hclosed
  simp only [Closed, not_forall, exists_prop]
  constructor
  · rintro ⟨name, hname, hno⟩
    exact ⟨name, hname,
      (Name.exists_token_eq_gbnf_not_ebnf_iff hroot name).mp ⟨hclosed name hname, hno⟩⟩
  · rintro ⟨name, hname, h⟩
    exact ⟨name, hname, ((Name.exists_token_eq_gbnf_not_ebnf_iff hroot name).mpr h).2⟩

theorem closed_ebnf_not_gbnf_iff (hroot : Name.root ∈ rules.map Prod.fst) :
    ¬ Closed .gbnf rules ∧ Closed .ebnf rules ↔ Closed .ebnf rules ∧
      ∃ name ∈ mentions rules, Name.snake name = "start" ∧
        ∀ key ∈ rules.map Prod.fst, Name.snake key ≠ "start" := by
  rw [and_comm]
  apply and_congr_right
  intro hclosed
  simp only [Closed, not_forall, exists_prop]
  constructor
  · rintro ⟨name, hname, hno⟩
    exact ⟨name, hname,
      (Name.exists_token_eq_ebnf_not_gbnf_iff hroot name).mp ⟨hclosed name hname, hno⟩⟩
  · rintro ⟨name, hname, h⟩
    exact ⟨name, hname, ((Name.exists_token_eq_ebnf_not_gbnf_iff hroot name).mpr h).2⟩

/-- Building with the check succeeds exactly on the grammars that are closed in GBNF. In GBNF that
makes the text closed. In Lark EBNF an open text is built exactly if some reference is another
spelling of `root` that no rule but the root has, and a closed text is refused exactly if some
reference is a spelling of `start` that no rule has. -/
theorem build_ok_iff_closed_but_for_entry_spellings (g : Grammar) (rules : List (String × Part))
    (hrules : g.rules = .ofParts rules) (hfinal : g.isFinal) (hvalidate : g.options.validate)
    (mode? : Option Mode) :
    let mode := mode?.getD g.options.mode
    ((∃ text, g.build mode? = .ok text) ↔ Closed .gbnf rules) ∧
    ((∃ text, g.build mode? = .ok text) ∧ ¬ Closed mode rules ↔
      mode = .ebnf ∧ Closed .gbnf rules ∧
        ∃ name ∈ mentions rules, (name ≠ Name.root ∧ Name.snake name = Name.root) ∧
          ∀ key ∈ rules.map Prod.fst, key ≠ Name.root → Name.snake key ≠ Name.root) ∧
    ((¬ ∃ text, g.build mode? = .ok text) ∧ Closed mode rules ↔
      mode = .ebnf ∧ Closed .ebnf rules ∧
        ∃ name ∈ mentions rules, Name.snake name = "start" ∧
          ∀ key ∈ rules.map Prod.fst, Name.snake key ≠ "start") := by
  intro mode
  have hok : (∃ text, g.build mode? = .ok text) ↔ Closed .gbnf rules :=
    exists_buildIn_eq_ok_iff hrules hfinal hvalidate mode
  have hroot : Name.root ∈ rules.map Prod.fst := root_mem_of_isFinal hrules hfinal
  refine ⟨hok, ?_, ?_⟩
  · rw [hok]
    cases mode with
    | gbnf => simp
    | ebnf => simpa using closed_gbnf_not_ebnf_iff hroot
  · rw [hok]
    cases mode with
    | gbnf => simp
    | ebnf => simpa using closed_ebnf_not_gbnf_iff hroot

def rootedAt (name : String) : Grammar :=
  ((Session.step (.root (.ref name))).run.run {}).2.grammar

theorem rootedAt_Root_built_open :
    (∃ text, (rootedAt "Root").build (some .ebnf) = .ok text) ∧
      ¬ Closed .ebnf [(Name.root, .ref "Root" none)] := by
  have hrules : (rootedAt "Root").rules = .ofParts [(Name.root, .ref "Root" none)] := by cbv
  have h := build_ok_iff_closed_but_for_entry_spellings (rootedAt "Root") _ hrules (by cbv)
    (by cbv) (some .ebnf)
  refine h.2.1.mpr ⟨rfl, of_decide_eq_true (by cbv), "Root", by simp [mentions, Part.refs], ?_, ?_⟩
  · exact ⟨by decide, by cbv⟩
  · simp

/-- Both ways in which building and closedness come apart in Lark EBNF. -/
theorem build_ebnf_not_iff_closed :
    (rootedAt "Root").rules = .ofParts [(Name.root, .ref "Root" none)] ∧
      (rootedAt "Root").build (some .ebnf) = .ok "start: root" ∧
      ¬ Closed .ebnf [(Name.root, .ref "Root" none)] ∧
    (rootedAt "start").rules = .ofParts [(Name.root, .ref "start" none)] ∧
      (∀ text, (rootedAt "start").build (some .ebnf) ≠ .ok text) ∧
      Closed .ebnf [(Name.root, .ref "start" none)] := by
  refine ⟨by cbv, by cbv, of_decide_eq_false (by cbv), by cbv, ?_, of_decide_eq_true (by cbv)⟩
  have hbuild : (rootedAt "start").build (some .ebnf) = .error (.grammar
      { fault := .undefinedRefs ["start"], context := some ⟨Name.root, .ebnf⟩ }) := by cbv
  intro text htext
  rw [hbuild] at htext
  cases htext

end GrammarRules.Grammar
