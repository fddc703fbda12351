import GrammarRules.Proofs.Command.Deliver
import GrammarRules.Proofs.Grammar.Printed

/-!
# The three ways out of a built text

A built text is put out as it is, highlighted, or written to a file. A file holds the text whatever
is in it. The other two hold it exactly if nothing in the literals and ranges is lost on the way:
control sequences on the one, and characters that are not kept on the other, for which the console
must also be wide enough.
-/

namespace GrammarRules.Command

open Console

/-- Whichever way a built text is put out, the command ends well. What is put out as it is holds
the text exactly if no literal and no range holds a control sequence. What is highlighted holds it
exactly if all characters of literals and ranges are kept, it does not end with a line feed, which
it never does if the rules are well formed, and the console is wide enough for its lines. A file
always holds it. -/
theorem built_text_carried_iff (columns : Nat) (modules : List Module) (target : String)
    (m : Member) (s : Session) (mode? : Option Mode) (text : String)
    (hm : Target.resolve (modules ++ bundled) target = .ok m)
    (hs : m.follow? = some (.ok (), s)) (hbuild : s.grammar.build mode? = .ok text) :
    let mode := mode?.getD s.grammar.options.mode
    (∀ arguments verbose,
      Request.ofArguments arguments = .ok (.build verbose target { mode := mode? }) →
      run modules arguments columns =
        (.exit 0, (shownBuilt columns verbose s mode text).print (echo text))) ∧
    (∀ arguments verbose,
      Request.ofArguments arguments = .ok (.build verbose target { mode := mode?, debug := true }) →
      run modules arguments columns = (.exit 0, (shownBuilt columns verbose s mode text).print
        (wrapped columns (printStyled (Highlight.text mode text))))) ∧
    (∀ arguments verbose debug path, Request.ofArguments arguments =
        .ok (.build verbose target { mode := mode?, output := some path, debug := debug }) →
      '\x00' ∉ path.toList → isWritable (plainPath path) →
      run modules arguments columns = (.exit 0,
        ((shownBuilt columns verbose s mode text).write (plainPath path) (text ++ "\n")).print
          (wrapped columns (print ("Wrote grammar to " ++ plainPath path))))) ∧
    (∃ rules, s.grammar.rules = .ofParts rules) ∧
    ∀ rules, s.grammar.rules = .ofParts rules →
      (echo text = text ++ "\n" ↔
        ∀ rule ∈ rules, ∀ leaf ∈ rule.2.texts, ¬ HoldsSequence leaf.toList) ∧
      (wrapped columns (printStyled (Highlight.text mode text)) = text ++ "\n" ↔
        ((∀ rule ∈ rules, ∀ leaf ∈ rule.2.texts, ∀ c ∈ leaf.toList, isKept c) ∧
          text.toList.getLast? ≠ some '\n') ∧ Fits columns text) ∧
      ((∀ rule ∈ rules, rule.2.WellFormed) → text.toList.getLast? ≠ some '\n') := by
  intro mode
  refine ⟨fun arguments verbose hrequest => ?_, fun arguments verbose hrequest => ?_,
    fun arguments verbose debug path hrequest hnull hpath => ?_, ?_, fun rules hrules => ?_⟩
  · have hrun := run_printed columns hrequest rfl hm hs hbuild
    rwa [if_neg Bool.false_ne_true] at hrun
  · have hrun := run_printed columns hrequest rfl hm hs hbuild
    rwa [if_pos rfl] at hrun
  · have hrun := run_written columns hrequest rfl hnull hpath hm hs hbuild
    exact hrun
  · exact Registry.exists_ofParts_of_render (Grammar.render_of_buildIn hbuild)
  · obtain ⟨-, -, rfl⟩ := (Grammar.buildIn_eq_ok_iff hrules).mp hbuild
    refine ⟨?_, ?_, Registry.getLast?_text_ne_feed⟩
    · rw [echo_eq_iff, Registry.holdsSequence_text_iff]
      simp only [not_exists, not_and]
    · rw [wrapped_highlighted_eq_iff, Registry.forall_isKept_text_iff]

def keptRule : Part := .sequence [.literal "a\n\u00a0\"", .range "[^\n ]" none] none

def kept : Grammar :=
  .madeBy [.root (.sequence [.literal "a\n\u00a0\"", .range "[^\n ]"])]

def keptText : String := "root ::= \"a\n\u00a0\\\"\" [^\n ]"

def keptModule : Module where
  name := "m"
  members := [("kept", .grammar kept)]

theorem kept_text_carried :
    run [keptModule] ["build", "m:kept"] = (.exit 0, { stdout := keptText ++ "\n" }) ∧
    run [keptModule] ["build", "m:kept", "--debug"] =
      (.exit 0, { stdout := keptText ++ "\n" }) ∧
    run [keptModule] ["build", "m:kept", "-o", "out"] =
      (.exit 0, { stdout := "Wrote grammar to out\n", files := [("out", keptText ++ "\n")] }) := by
  have hm : Target.resolve ([keptModule] ++ bundled) "m:kept" = .ok (.grammar kept) := rfl
  have hbuild : kept.build none = .ok keptText := by cbv
  have hrules : kept.rules = .ofParts [(Name.root, keptRule)] := by cbv
  have hleaves : ∀ leaf ∈ keptRule.texts, leaf.toList.all fun c => c ≠ '\x1b' ∧ isKept c := by
    decide
  have hleaf : ∀ leaf ∈ keptRule.texts, ∀ c ∈ leaf.toList, c ≠ '\x1b' ∧ isKept c :=
    fun leaf hleaf c hc => of_decide_eq_true (List.all_eq_true.mp (hleaves leaf hleaf) c hc)
  have hdebug : ({ grammar := kept } : Session).grammar.options.debug = false := by cbv
  obtain ⟨hplain, hhighlighted, hfile, -, hcarried⟩ :=
    built_text_carried_iff ampleColumns [keptModule] "m:kept" (.grammar kept) { grammar := kept }
      none keptText hm rfl hbuild
  obtain ⟨hecho, hstyled, -⟩ := hcarried _ hrules
  simp only [List.forall_mem_singleton] at hecho hstyled
  have hput := hecho.mpr fun leaf hmem hholds =>
    (hleaf leaf hmem '\x1b' (escape_mem_of_holdsSequence hholds)).1 rfl
  have hfits : Fits ampleColumns keptText := by decide +kernel
  have hshown := hstyled.mpr ⟨⟨fun leaf hmem c hc => (hleaf leaf hmem c hc).2, by decide⟩, hfits⟩
  refine ⟨?_, ?_, ?_⟩
  · rw [hplain _ false rfl, hput, shownBuilt_quiet hdebug]
    rfl
  · rw [hhighlighted _ false rfl, hshown, shownBuilt_quiet hdebug]
    rfl
  · have hdone : wrapped ampleColumns (print ("Wrote grammar to " ++ plainPath "out")) =
        "Wrote grammar to out\n" := by
      decide +kernel
    rw [hfile _ false false "out" rfl (by decide) (by decide), shownBuilt_quiet hdebug, hdone]
    rfl

def separated : Grammar := .madeBy [.root (.literal "a\u2028b")]

def separatedModule : Module where
  name := "m"
  members := [("separated", .grammar separated)]

/-- A line separator in a literal is put out as it is, but as a line feed where the text is
highlighted. -/
theorem line_separator_lost :
    separated.build none = .ok "root ::= \"a\u2028b\"" ∧
    run [separatedModule] ["build", "m:separated"] =
      (.exit 0, { stdout := "root ::= \"a\u2028b\"\n" }) ∧
    run [separatedModule] ["build", "m:separated", "--debug"] =
      (.exit 0, { stdout := "root ::= \"a\nb\"\n" }) := by
  have hm : Target.resolve ([separatedModule] ++ bundled) "m:separated" =
      .ok (.grammar separated) := rfl
  have hbuild : ({ grammar := separated } : Session).grammar.build none =
      .ok "root ::= \"a\u2028b\"" := by
    cbv
  have hdebug : ({ grammar := separated } : Session).grammar.options.debug = false := by cbv
  have hmode : separated.options.mode = .gbnf := by cbv
  have hput : echo "root ::= \"a\u2028b\"" = "root ::= \"a\u2028b\"\n" := by cbv
  have hshown : wrapped ampleColumns
      (printStyled (Highlight.text .gbnf "root ::= \"a\u2028b\"")) = "root ::= \"a\nb\"\n" := by
    decide +kernel
  refine ⟨hbuild, ?_, ?_⟩
  · have hrequest : Request.ofArguments ["build", "m:separated"] =
        .ok (.build false "m:separated" {}) := rfl
    rw [run_printed _ hrequest rfl hm rfl hbuild, shownBuilt_quiet hdebug,
      if_neg Bool.false_ne_true, hput]
    rfl
  · have hrequest : Request.ofArguments ["build", "m:separated", "--debug"] =
        .ok (.build false "m:separated" { debug := true }) := rfl
    rw [run_printed _ hrequest rfl hm rfl hbuild, shownBuilt_quiet hdebug, if_pos rfl,
      Option.getD_none, hmode, hshown]
    rfl

end GrammarRules.Command
