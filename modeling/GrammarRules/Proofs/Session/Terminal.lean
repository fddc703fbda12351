import GrammarRules.Proofs.Grammar.Build
import GrammarRules.Proofs.Session.Program

/-!
# What stays once the root is set

In a final grammar the root is meant to be the last rule, and no other rule is meant to come or
change. Every call that is made on a final grammar keeps to that, whatever its factory does. A
definition that was admitted before does not: its factory may set the root and then return, and the
rule is stored all the same. A run keeps the root last, in the registry and in the text, and all
other rules as they are, exactly if no definition overtaken in this way stores anything new.
-/

namespace GrammarRules

namespace Grammar

variable {g : Grammar} {name : String} {value : Value}

def RootLast (g : Grammar) : Prop := g.isFinal → g.rules.names.getLast? = some Name.root

/-- Names and rules of `g'` are those of `g`, but perhaps for the root rule. -/
def SameRules (g g' : Grammar) : Prop :=
  g'.rules.names = g.rules.names ∧ ∀ n ≠ Name.root, g'.rules.get? n = g.rules.get? n

def BuildsRootLast (g : Grammar) : Prop :=
  ∀ mode text, g.buildIn mode = .ok text → ∃ front value line, g.rules.get? Name.root = some value ∧
    Registry.definition mode Name.root value = .ok line ∧ text = "\n".intercalate (front ++ [line])

theorem SameRules.refl (g : Grammar) : SameRules g g := ⟨rfl, fun _ _ => rfl⟩

theorem SameRules.trans {g₁ g₂ g₃ : Grammar} (h : SameRules g₁ g₂) (h' : SameRules g₂ g₃) :
    SameRules g₁ g₃ :=
  ⟨h'.1.trans h.1, fun n hn => (h'.2 n hn).trans (h.2 n hn)⟩

theorem rootLast_put_root (h : g.RootLast) : (g.put Name.root value).RootLast := by
  intro _
  by_cases hfinal : g.isFinal
  · rw [rules_put, Registry.names_put_of_mem _ _ _ ((isFinal_iff g).mp hfinal)]
    exact h hfinal
  · rw [rules_put, Registry.names_put_of_not_mem _ _ _ (mt (isFinal_iff g).mpr hfinal)]
    simp

theorem isFinal_put_iff (hname : name ≠ Name.root) : (g.put name value).isFinal ↔ g.isFinal := by
  rw [isFinal_iff, isFinal_iff, rules_put, Registry.mem_names_put]
  simp [hname.symm]

theorem rootLast_put_iff (hname : name ≠ Name.root) (h : g.RootLast) :
    (g.put name value).RootLast ↔ (g.isFinal → name ∈ g.rules.names) := by
  rw [RootLast, isFinal_put_iff hname, rules_put]
  refine forall_congr' fun hfinal => ?_
  by_cases hmem : name ∈ g.rules.names
  · simp [Registry.names_put_of_mem _ _ _ hmem, hmem, h hfinal]
  · simp [Registry.names_put_of_not_mem _ _ _ hmem, hmem, hname]

theorem sameRules_put_root (hfinal : g.isFinal) : SameRules g (g.put Name.root value) := by
  refine ⟨Registry.names_put_of_mem _ _ _ ((isFinal_iff g).mp hfinal), fun n hn => ?_⟩
  rw [rules_put, Registry.get?_put, if_neg hn]

theorem mem_names_of_get? (h : g.rules.get? name = some value) : name ∈ g.rules.names := by
  rw [← Registry.get?_isSome_iff, h]
  rfl

theorem sameRules_put_iff (hname : name ≠ Name.root) :
    SameRules g (g.put name value) ↔ g.rules.get? name = some value := by
  constructor
  · intro h
    rw [← h.2 name hname, rules_put, Registry.get?_put, if_pos rfl]
  · intro h
    refine ⟨Registry.names_put_of_mem _ _ _ (mem_names_of_get? h), fun n hn => ?_⟩
    rw [rules_put, Registry.get?_put]
    split
    · next heq => rw [heq, h]
    · rfl

end Grammar

namespace Return

variable {α : Type} {p : Program α} {s : Session} {r : Return}

theorem overtaken_iff (h : r ∈ p.history s) :
    r.Overtaken ↔ r.call.name ≠ Name.root ∧ r.after.isFinal := by
  rcases Program.call_of_mem_history h with hcall | ⟨name, hcall, hadm⟩
  · simp [Overtaken, hcall, Call.name]
  · obtain ⟨-, hname, hfinal⟩ := (Grammar.admits_eq_ok_iff ..).mp hadm
    simp [Overtaken, hcall, Call.name, hname, hfinal]

theorem rootLast_stored_iff (h : r ∈ p.history s) (hlast : r.after.RootLast) :
    r.stored.RootLast ↔ (r.Overtaken → r.call.name ∈ r.after.rules.names) := by
  rw [overtaken_iff h, stored]
  by_cases hname : r.call.name = Name.root
  · simp [hname, Grammar.rootLast_put_root hlast]
  · rw [Grammar.rootLast_put_iff hname hlast]
    simp [hname]

theorem sameRules_stored_iff (h : r ∈ p.history s) :
    (r.after.isFinal → Grammar.SameRules r.after r.stored) ↔
      (r.Overtaken → r.after.rules.get? r.call.name = some r.value) := by
  rw [overtaken_iff h, stored]
  by_cases hname : r.call.name = Name.root
  · have hsame := @Grammar.sameRules_put_root r.after r.value
    simpa [hname] using hsame
  · rw [Grammar.sameRules_put_iff hname]
    simp [hname]

end Return
namespace Grammar

theorem buildsRootLast_of_rootLast {g : Grammar} (hnodup : g.rules.names.Nodup) (h : g.RootLast) :
    g.BuildsRootLast := by
  intro mode text hbuild
  have hlast := h (isFinal_of_buildIn hbuild)
  rw [Registry.names, List.getLast?_map] at hlast
  obtain ⟨⟨_, value⟩, hentry, rfl⟩ := Option.map_eq_some_iff.mp hlast
  obtain ⟨front, hentries⟩ := List.getLast?_eq_some_iff.mp hentry
  have hmem : (Name.root, value) ∈ g.rules.entries := List.mem_of_getLast? hentry
  have hrender := render_of_buildIn hbuild
  rw [Registry.render] at hrender
  cases hdefs : Registry.definitions mode g.rules.entries with
  | error e =>
    rw [hdefs] at hrender
    cases hrender
  | ok lines =>
    rw [hdefs] at hrender
    rw [hentries] at hdefs
    obtain ⟨before, line, hline, rfl⟩ := Registry.definitions_concat_eq_ok hdefs
    exact ⟨before, value, line, Registry.get?_of_mem hnodup hmem, hline,
      (Except.ok.inj hrender).symm⟩

end Grammar

namespace Program

variable {α : Type} (p : Program α) {s : Session}

theorem nodup_of_mem_history (hnodup : s.grammar.rules.names.Nodup) {r : Return}
    (hr : r ∈ p.history s) : r.stored.rules.names.Nodup := by
  have h := p.history_induction (P := fun g => g.rules.names.Nodup) s hnodup
    fun r _ hafter => Registry.nodup_names_put _ _ _ hafter
  exact Registry.nodup_names_put _ _ _ (h.1 r hr).2

/-- The root stays last in the registry exactly if no overtaken definition adds a name. -/
theorem forall_rootLast_iff (hlast : s.grammar.RootLast) :
    (∀ r ∈ p.history s, r.stored.RootLast) ↔
      ∀ r ∈ p.history s, r.Overtaken → r.call.name ∈ r.after.rules.names := by
  constructor
  · intro h r hr
    have hrun := p.history_induction s hlast fun r hr _ => h r hr
    exact (Return.rootLast_stored_iff hr (hrun.1 r hr).2).mp (h r hr)
  · intro h r hr
    have hrun := p.history_induction s hlast fun r hr hafter =>
      (Return.rootLast_stored_iff hr hafter).mpr (h r hr)
    exact (Return.rootLast_stored_iff hr (hrun.1 r hr).2).mpr (h r hr)

/-- A run from a final grammar keeps it final, so it admits no definition. -/
theorem call_eq_root_of_isFinal (hfinal : s.grammar.isFinal) {r : Return} (hr : r ∈ p.history s) :
    r.call = .root := by
  have hrun := p.history_induction (P := fun g => g.isFinal) s hfinal
    fun r _ hafter => Grammar.isFinal_put _ _ _ hafter
  rcases call_of_mem_history hr with hcall | ⟨name, -, hadm⟩
  · exact hcall
  · exact absurd (hrun.1 r hr).1 ((Grammar.admits_eq_ok_iff ..).mp hadm).2.2

/-- Whatever is run from a final grammar, nested calls included, replaces the root rule at most. -/
theorem sameRules_exec_of_isFinal (hfinal : s.grammar.isFinal) :
    Grammar.SameRules s.grammar (s.exec p.run).2.grammar := by
  have hrun := p.history_induction (P := fun g => g.isFinal ∧ Grammar.SameRules s.grammar g) s
    ⟨hfinal, .refl _⟩ fun r hr ⟨hafter, hsame⟩ => by
      refine ⟨Grammar.isFinal_put _ _ _ hafter, hsame.trans ?_⟩
      rw [Return.stored, p.call_eq_root_of_isFinal hfinal hr]
      exact Grammar.sameRules_put_root hafter
  exact hrun.2.2

/-- In a run on a fresh grammar the root is last in the registry and in the text and the other rules
stay once it is set, exactly if no overtaken definition changes what is under its name. The root is
last exactly if none adds a name. What is run from a final grammar replaces at most the root. -/
theorem terminal_iff_overtaken_store_nothing_new (p : Program α) (o : Options) :
    let history := p.history { grammar := { options := o } }
    ((∀ r ∈ history, r.stored.RootLast ∧ r.stored.BuildsRootLast ∧
        (r.after.isFinal → Grammar.SameRules r.after r.stored)) ↔
      ∀ r ∈ history, r.Overtaken → r.after.rules.get? r.call.name = some r.value) ∧
    ((∀ r ∈ history, r.stored.RootLast) ↔
      ∀ r ∈ history, r.Overtaken → r.call.name ∈ r.after.rules.names) ∧
    ∀ s : Session, s.grammar.isFinal → Grammar.SameRules s.grammar (s.exec p.run).2.grammar := by
  intro history
  have hlast : Grammar.RootLast { options := o } := fun h => by simp [Grammar.isFinal_iff,
    Registry.names] at h
  have hroot := p.forall_rootLast_iff (s := { grammar := { options := o } }) hlast
  refine ⟨⟨fun h r hr => ?_, fun h r hr => ?_⟩, hroot, fun s => p.sameRules_exec_of_isFinal⟩
  · exact (Return.sameRules_stored_iff hr).mp (h r hr).2.2
  · have hstored : r.stored.RootLast := by
      refine hroot.mpr (fun r hr hover => ?_) r hr
      exact Grammar.mem_names_of_get? (h r hr hover)
    have hnodup : r.stored.rules.names.Nodup := p.nodup_of_mem_history (by simp [Registry.names]) hr
    exact ⟨hstored, Grammar.buildsRootLast_of_rootLast hnodup hstored,
      (Return.sameRules_stored_iff hr).mpr (h r hr)⟩

def rootedInside : Program Unit :=
  .define "a" (fun _ => .root (fun _ => .done (.ok (.part (.literal "x")))) fun _ =>
    .done (.ok (.part (.literal "y")))) .done

theorem rootedInside_root_not_last :
    (Session.exec {} rootedInside.run).2.grammar.rules.names = [Name.root, "a"] ∧
      (Session.exec {} rootedInside.run).2.grammar.build none =
        .ok "root ::= \"x\"\na ::= \"y\"" ∧
      ¬ ∀ r ∈ rootedInside.history {}, r.stored.RootLast := by
  have hnames : (Session.exec {} rootedInside.run).2.grammar.rules.names = [Name.root, "a"] := by
    cbv
  refine ⟨hnames, by cbv, fun h => ?_⟩
  have hfresh : Grammar.RootLast {} := fun hfinal => by cases hfinal
  have hrun := rootedInside.history_induction (P := Grammar.RootLast) {} hfresh fun r hr _ => h r hr
  have hlast := hrun.2 (by cbv)
  rw [hnames] at hlast
  exact absurd hlast (by decide)

end Program
end GrammarRules
