import GrammarRules.Proofs.Grammar.Closed
import GrammarRules.Proofs.Registry.Targets
import GrammarRules.Proofs.Session.Calls

/-!
# The order of definitions

Rules may refer to rules that are defined later, and to themselves. So when fixed rules are defined
under different names and the root is set after them, the order of the definitions tells the order
of the text and the rule that is blamed for an error, and nothing else: not whether the grammar is
built, not which references dangle, and not which targets an error lists.
-/

namespace GrammarRules

namespace Session

variable {o : Options} {s : Session} {rules defs defs' : List (String × Part)} {p : Part}

theorem after_append (s : Session) (calls calls' : List Request) :
    s.after (calls ++ calls') = (s.after calls).after calls' := by
  induction calls generalizing s with
  | nil => rfl
  | cons r calls ih => exact ih _

def definitionOf (rule : String × Part) : Request := ⟨.define rule.1, .const (.part rule.2)⟩

def definitionsAndRoot (defs : List (String × Part)) (p : Part) : List Request :=
  defs.map definitionOf ++ [⟨.root, .const (.part p)⟩]

/-- A call that is not refused stores the fixed value it was made with. -/
theorem grammar_perform_const {call : Call} (hok : s.refusal call = .ok ()) (value : Value) :
    (s.exec (Request.perform ⟨call, .const value⟩)).2.grammar = s.grammar.put call.name value := by
  cases call with
  | root => rfl
  | define name =>
    have hexec := s.exec_define name (Factory.const value).make
    rw [refusal] at hok
    rw [hok] at hexec
    exact congrArg (fun outcome => outcome.2.grammar) hexec

/-- Admitted definitions of different names are kept in their order. -/
theorem grammar_after_definitions (hs : s.grammar = ⟨o, .ofParts rules⟩)
    (hnodup : ((rules ++ defs).map Prod.fst).Nodup)
    (hroot : Name.root ∉ (rules ++ defs).map Prod.fst)
    (hblank : ∀ rule ∈ defs, Name.isBlank rule.1 = false) :
    (s.after (defs.map definitionOf)).grammar = ⟨o, .ofParts (rules ++ defs)⟩ := by
  induction defs generalizing s rules with
  | nil =>
    rw [List.append_nil]
    exact hs
  | cons rule defs ih =>
    obtain ⟨name, p⟩ := rule
    obtain ⟨hname, hdefs⟩ := List.forall_mem_cons.mp hblank
    have happend : rules ++ (name, p) :: defs = rules ++ [(name, p)] ++ defs := by simp
    rw [happend] at hnodup hroot ⊢
    have hfront : ((rules ++ [(name, p)]).map Prod.fst).Nodup := by
      rw [List.map_append] at hnodup
      exact (List.nodup_append.mp hnodup).1
    have hnew : name ∉ rules.map Prod.fst := by
      rw [List.map_append, List.nodup_append] at hfront
      exact fun hmem => hfront.2.2 name hmem name (List.mem_singleton_self name) rfl
    have hok : s.refusal (.define name) = .ok () := by
      simp only [List.map_append, List.mem_append, not_or] at hroot
      rw [refusal, Grammar.admits_eq_ok_iff, Grammar.isFinal_iff, hs, Registry.names_ofParts]
      exact ⟨hname, fun h => hroot.1.2 (List.mem_singleton.mpr h.symm), hroot.1.1⟩
    refine ih ?_ hnodup hroot hdefs
    rw [definitionOf, grammar_perform_const hok, hs, Grammar.put, Call.name,
      Registry.put_ofParts hnew]

theorem grammar_definitionsAndRoot (hnodup : (defs.map Prod.fst).Nodup)
    (haccepted : ∀ rule ∈ defs, Name.isBlank rule.1 = false ∧ rule.1 ≠ Name.root) :
    ((fresh o).after (definitionsAndRoot defs p)).grammar =
      ⟨o, .ofParts (defs ++ [(Name.root, p)])⟩ := by
  have hroot : Name.root ∉ defs.map Prod.fst := by
    intro hmem
    obtain ⟨rule, hrule, hname⟩ := List.mem_map.mp hmem
    exact (haccepted rule hrule).2 hname
  have hfresh : (fresh o).grammar = ⟨o, .ofParts []⟩ := rfl
  have hdefs : ((fresh o).after (defs.map definitionOf)).grammar = ⟨o, .ofParts defs⟩ :=
    grammar_after_definitions hfresh hnodup hroot fun rule hrule => (haccepted rule hrule).1
  rw [definitionsAndRoot, after_append]
  change (Session.exec _ (Request.perform ⟨.root, .const (.part p)⟩)).2.grammar = _
  rw [grammar_perform_const rfl, hdefs, Grammar.put, Call.name, Registry.put_ofParts hroot]

end Session

namespace Registry

variable {rules rules' : List (String × Part)}

theorem mem_tokens_iff_of_perm (h : rules.Perm rules') (token : String) :
    token ∈ (ofParts rules).tokens ↔ token ∈ (ofParts rules').tokens := by
  rw [tokens, tokens, names_ofParts, names_ofParts]
  exact ((h.map _).map _).mem_iff

theorem flatMap_missing_perm (h : rules.Perm rules') :
    (rules.flatMap (missing (ofParts rules).tokens)).Perm
      (rules'.flatMap (missing (ofParts rules').tokens)) := by
  rw [missing_congr (mem_tokens_iff_of_perm h)]
  exact h.flatMap_right _

end Registry

namespace Grammar

open Registry

variable {g g' : Grammar} {rules rules' : List (String × Part)}

/-- Whether a grammar is built, and which targets an error lists, is the same in any order. -/
theorem build_cases_of_perm (h : rules.Perm rules') (hrules : g.rules = .ofParts rules)
    (hrules' : g'.rules = .ofParts rules') (hoptions : g'.options = g.options)
    (hfinal : g.isFinal) (mode : Mode) :
    (g.buildIn mode = .ok ("\n".intercalate (rules.map (line mode))) ∧
      g'.buildIn mode = .ok ("\n".intercalate (rules'.map (line mode)))) ∨
    ∃ targets rule rule',
      g.buildIn mode = .error (.grammar
        { fault := .undefinedRefs targets, context := some ⟨rule, mode⟩ }) ∧
      g'.buildIn mode = .error (.grammar
        { fault := .undefinedRefs targets, context := some ⟨rule', mode⟩ }) := by
  have hfinal' : g'.isFinal := by
    rw [isFinal_iff, hrules, names_ofParts] at hfinal
    rw [isFinal_iff, hrules', names_ofParts]
    exact (h.map Prod.fst).mem_iff.mp hfinal
  have hmissing := flatMap_missing_perm h
  by_cases hvalidate : g.options.validate
  · have hvalidate' : g'.options.validate := hoptions ▸ hvalidate
    cases hpairs : rules.flatMap (missing (ofParts rules).tokens) with
    | nil =>
      have hpairs' : rules'.flatMap (missing (ofParts rules').tokens) = [] := by
        rw [hpairs] at hmissing
        exact hmissing.nil_eq.symm
      rw [flatMap_missing_eq_nil_iff] at hpairs hpairs'
      exact Or.inl ⟨(buildIn_eq_ok_iff hrules).mpr ⟨hfinal, fun _ => hpairs, rfl⟩,
        (buildIn_eq_ok_iff hrules').mpr ⟨hfinal', fun _ => hpairs', rfl⟩⟩
    | cons pair more =>
      -- both lists are not empty, and the targets are sorted whichever comes first
      cases hpairs' : rules'.flatMap (missing (ofParts rules').tokens) with
      | nil =>
        rw [hpairs, hpairs'] at hmissing
        exact absurd hmissing.eq_nil (List.cons_ne_nil _ _)
      | cons pair' more' =>
        rw [hpairs, hpairs'] at hmissing
        have htargets : sortNames ((pair' :: more').map Prod.snd) =
            sortNames ((pair :: more).map Prod.snd) :=
          sortNames_eq_of_mem_iff fun _ => (hmissing.map Prod.snd).mem_iff.symm
        refine Or.inr ⟨sortNames ((pair :: more).map Prod.snd), pair.1, pair'.1, ?_, ?_⟩
        · exact buildIn_eq_error hrules hfinal hvalidate mode hpairs
        · rw [← htargets]
          exact buildIn_eq_error hrules' hfinal' hvalidate' mode hpairs'
  · have hvalidate' : ¬ g'.options.validate := hoptions ▸ hvalidate
    exact Or.inl ⟨(buildIn_eq_ok_iff hrules).mpr ⟨hfinal, fun h => absurd h hvalidate, rfl⟩,
      (buildIn_eq_ok_iff hrules').mpr ⟨hfinal', fun h => absurd h hvalidate', rfl⟩⟩

end Grammar

namespace Session

open Registry

/-- Fixed rules with different names are defined in two orders, and the root is set after them. Then
both grammars are built, as the same definitions in the two orders with the root last, or both are
refused for the same targets. The same references dangle in both. -/
theorem build_of_permuted_definitions (o : Options) (defs defs' : List (String × Part)) (p : Part)
    (hperm : defs.Perm defs') (hnodup : (defs.map Prod.fst).Nodup)
    (haccepted : ∀ rule ∈ defs, Name.isBlank rule.1 = false ∧ rule.1 ≠ Name.root) :
    let g := ((fresh o).after (definitionsAndRoot defs p)).grammar
    let g' := ((fresh o).after (definitionsAndRoot defs' p)).grammar
    (∀ mode?, let mode := mode?.getD o.mode
      ((∃ text, g.build mode? = .ok text) ↔ ∃ text, g'.build mode? = .ok text) ∧
      (∀ text text', g.build mode? = .ok text → g'.build mode? = .ok text' →
        text = "\n".intercalate (defs.map (line mode) ++ [line mode (Name.root, p)]) ∧
        text' = "\n".intercalate (defs'.map (line mode) ++ [line mode (Name.root, p)])) ∧
      ∀ e, g.build mode? = .error e → ∃ targets rule rule',
        e = .grammar { fault := .undefinedRefs targets, context := some ⟨rule, mode⟩ } ∧
        g'.build mode? = .error (.grammar
          { fault := .undefinedRefs targets, context := some ⟨rule', mode⟩ })) ∧
    ∃ pairs pairs', g.rules.dangling = .ok pairs ∧ g'.rules.dangling = .ok pairs' ∧
      pairs.Perm pairs' := by
  intro g g'
  have hg : g = ⟨o, .ofParts (defs ++ [(Name.root, p)])⟩ :=
    grammar_definitionsAndRoot hnodup haccepted
  have hg' : g' = ⟨o, .ofParts (defs' ++ [(Name.root, p)])⟩ :=
    grammar_definitionsAndRoot ((hperm.map Prod.fst).nodup_iff.mp hnodup) fun rule hrule =>
      haccepted rule (hperm.mem_iff.mpr hrule)
  have hall : (defs ++ [(Name.root, p)]).Perm (defs' ++ [(Name.root, p)]) := hperm.append_right _
  rw [hg, hg']
  refine ⟨fun mode? => ?_, _, _, dangling_ofParts, dangling_ofParts, flatMap_missing_perm hall⟩
  intro mode
  have hfinal : Grammar.isFinal ⟨o, .ofParts (defs ++ [(Name.root, p)])⟩ := by
    simp [Grammar.isFinal_iff]
  rcases @Grammar.build_cases_of_perm ⟨o, _⟩ ⟨o, _⟩ _ _ hall rfl rfl rfl hfinal mode with
    ⟨h, h'⟩ | ⟨targets, rule, rule', h, h'⟩
  · refine ⟨iff_of_true ⟨_, h⟩ ⟨_, h'⟩, fun text text' htext htext' => ?_, fun e he => ?_⟩
    · rw [← Except.ok.inj (h.symm.trans htext), ← Except.ok.inj (h'.symm.trans htext')]
      simp
    · cases h.symm.trans he
  · refine ⟨iff_of_false ?_ ?_, fun text _ htext _ => ?_, fun e he => ?_⟩
    · rintro ⟨text, htext⟩
      cases h.symm.trans htext
    · rintro ⟨text, htext⟩
      cases h'.symm.trans htext
    · cases h.symm.trans htext
    · exact ⟨targets, rule, rule', (Except.error.inj (h.symm.trans he)).symm, h'⟩

def lostRules : List (String × Part) :=
  [("list", .sequence [.ref "item" none, .ref "lost" none] none), ("item", .ref "gone" none)]

theorem lostRules_refused_alike_in_reverse :
    ((fresh {}).after (definitionsAndRoot lostRules (.ref "list" none))).grammar.build none =
        .error (.grammar
          { fault := .undefinedRefs ["gone", "lost"], context := some ⟨"list", .gbnf⟩ }) ∧
      ∃ rule,
        ((fresh {}).after (definitionsAndRoot lostRules.reverse (.ref "list" none))).grammar.build
          none = .error (.grammar
            { fault := .undefinedRefs ["gone", "lost"], context := some ⟨rule, .gbnf⟩ }) := by
  have hbuild : ((fresh {}).after (definitionsAndRoot lostRules (.ref "list" none))).grammar.build
      none = .error (.grammar
        { fault := .undefinedRefs ["gone", "lost"], context := some ⟨"list", .gbnf⟩ }) := by cbv
  have haccepted : ∀ rule ∈ lostRules, Name.isBlank rule.1 = false ∧ rule.1 ≠ Name.root :=
    List.forall_mem_cons.mpr ⟨⟨by cbv, by decide⟩, List.forall_mem_singleton.mpr
      ⟨by cbv, by decide⟩⟩
  have h := build_of_permuted_definitions {} lostRules lostRules.reverse (.ref "list" none)
    (List.reverse_perm _).symm (by decide) haccepted
  obtain ⟨targets, rule, rule', heq, hbuild'⟩ := (h.1 none).2.2 _ hbuild
  cases heq
  exact ⟨hbuild, rule', hbuild'⟩

end Session
end GrammarRules
