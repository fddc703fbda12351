import GrammarRules.Proofs.Grammar.Closed
import GrammarRules.Proofs.Session.Program

/-!
# Values that are no rules

Whatever a factory gives is stored, and a value that is no part is noticed when the grammar is
built: by the check of references, if the options ask for it, or else when the text is written. The
first such value in the registry then decides the error. Where all rules of a final grammar are
parts, and so wherever factories give nothing but parts, building gives a text or an error about the
registry. A property of a fresh grammar that each store keeps holds throughout a run: that all rules
are parts is one, that no rule has a blank name another.
-/

namespace GrammarRules

def Value.IsPart (v : Value) : Prop := ∃ p, v = .part p

/-- How a value that is no part makes building fail, with or without the check of references. -/
def Value.misfit? (validate : Bool) (v : Value) : Option Error :=
  match v with
  | .part _ => none
  | .bare _ => some (if validate then .lacking v.kind "options" else .kindless)
  | .data _ | .deferred _ =>
      some (if validate then .lacking v.kind "options" else .unrenderable v.kind)

/-- An error about the registry as a whole: no root, or references without a definition. -/
def Error.IsStructural (e : Error) : Prop := ∃ e', e = .grammar e' ∧ e'.fault.family = .registry

namespace Value

variable {v : Value} {validate : Bool} {e : Error}

theorem misfit?_eq_none_iff : v.misfit? validate = none ↔ v.IsPart := by
  cases v <;> simp [misfit?, IsPart]

theorem not_isStructural_of_misfit? (h : v.misfit? validate = some e) : ¬ e.IsStructural := by
  rintro ⟨e', rfl, -⟩
  cases v <;> cases validate <;> cases h

theorem render_of_misfit? (h : v.misfit? false = some e) (mode : Mode) :
    v.render mode = .error e := by
  cases v <;> cases h <;> rfl

theorem refs_of_misfit? (h : v.misfit? true = some e) : v.refs = .error e := by
  cases v <;> cases h <;> rfl

end Value

namespace Registry

variable {r : Registry} {entries : List (String × Value)} {validate : Bool} {e : Error}

def misfit? (validate : Bool) (r : Registry) : Option Error :=
  r.entries.findSome? fun rule => rule.2.misfit? validate

theorem misfit?_eq_none_iff :
    r.misfit? validate = none ↔ ∀ rule ∈ r.entries, rule.2.IsPart := by
  simp only [misfit?, List.findSome?_eq_none_iff, Value.misfit?_eq_none_iff]

theorem not_isStructural_of_misfit? (h : r.misfit? validate = some e) : ¬ e.IsStructural := by
  obtain ⟨rule, -, hrule⟩ := List.exists_of_findSome?_eq_some h
  exact Value.not_isStructural_of_misfit? hrule

theorem exists_ofParts_of_isPart (h : ∀ rule ∈ entries, rule.2.IsPart) :
    ∃ rules, entries = (ofParts rules).entries := by
  induction entries with
  | nil => exact ⟨[], rfl⟩
  | cons entry entries ih =>
    obtain ⟨name, v⟩ := entry
    obtain ⟨⟨p, hp⟩, hentries⟩ := List.forall_mem_cons.mp h
    cases hp
    obtain ⟨rules, rfl⟩ := ih hentries
    exact ⟨(name, p) :: rules, rfl⟩

theorem definitions_of_misfit? (mode : Mode)
    (h : entries.findSome? (fun rule => rule.2.misfit? false) = some e) :
    definitions mode entries = .error e := by
  induction entries with
  | nil => cases h
  | cons entry entries ih =>
    obtain ⟨name, v⟩ := entry
    rw [List.findSome?_cons] at h
    cases hv : v.misfit? false with
    | some e' =>
      simp only [hv] at h
      cases h
      rw [definitions, definition, Value.render_of_misfit? hv]
      rfl
    | none =>
      simp only [hv] at h
      obtain ⟨p, rfl⟩ := Value.misfit?_eq_none_iff.mp hv
      simp only [definitions, ih h]
      rfl

theorem danglingIn_of_misfit? (defined : List String)
    (h : entries.findSome? (fun rule => rule.2.misfit? true) = some e) :
    danglingIn defined entries = .error e := by
  induction entries with
  | nil => cases h
  | cons entry entries ih =>
    obtain ⟨name, v⟩ := entry
    rw [List.findSome?_cons] at h
    cases hv : v.misfit? true with
    | some e' =>
      simp only [hv] at h
      cases h
      rw [danglingIn, Value.refs_of_misfit? hv]
      rfl
    | none =>
      simp only [hv] at h
      obtain ⟨p, rfl⟩ := Value.misfit?_eq_none_iff.mp hv
      simp only [danglingIn, ih h]
      rfl

end Registry

namespace Grammar

variable {g : Grammar} {e : Error}

def BuildsOrRefuses (g : Grammar) : Prop :=
  ∀ mode?, (∃ text, g.build mode? = .ok text) ∨
    ∃ e, g.build mode? = .error e ∧ e.IsStructural

theorem buildIn_of_not_isFinal (hfinal : ¬ g.isFinal) (mode : Mode) :
    g.buildIn mode = .error (.grammar { fault := .noRoot }) := by
  simp only [buildIn, hfinal]
  rfl

theorem buildIn_of_misfit? (hfinal : g.isFinal)
    (h : g.rules.misfit? g.options.validate = some e) (mode : Mode) :
    g.buildIn mode = .error e := by
  rw [buildIn_of_isFinal hfinal, checkRefs]
  by_cases hvalidate : g.options.validate
  · rw [hvalidate] at h
    rw [if_pos hvalidate, Registry.dangling, Registry.danglingIn_of_misfit? _ h]
    rfl
  · rw [Bool.not_eq_true] at hvalidate
    rw [hvalidate] at h
    rw [hvalidate, Registry.render, Registry.definitions_of_misfit? mode h]
    rfl

theorem buildIn_ofParts_cases {rules : List (String × Part)} (hrules : g.rules = .ofParts rules)
    (hfinal : g.isFinal) (mode : Mode) : (∃ text, g.buildIn mode = .ok text) ∨
      ∃ e, g.buildIn mode = .error e ∧ e.IsStructural := by
  by_cases hclosed : g.options.validate → Registry.Closed .gbnf rules
  · exact Or.inl ⟨_, (buildIn_eq_ok_iff hrules).mpr ⟨hfinal, hclosed, rfl⟩⟩
  · obtain ⟨hvalidate, hopen⟩ := Classical.not_imp.mp hclosed
    obtain ⟨⟨rule, target⟩, more, hmissing⟩ :=
      List.exists_cons_of_ne_nil (mt Registry.flatMap_missing_eq_nil_iff.mp hopen)
    exact Or.inr ⟨_, buildIn_eq_error hrules hfinal hvalidate mode hmissing, _, rfl, rfl⟩

/-- The errors of building that are not about the registry. -/
theorem build_eq_error_iff_misfit? (mode? : Option Mode) (he : ¬ e.IsStructural) :
    g.build mode? = .error e ↔ g.isFinal ∧ g.rules.misfit? g.options.validate = some e := by
  constructor
  · intro h
    rw [build] at h
    by_cases hfinal : g.isFinal
    · refine ⟨hfinal, ?_⟩
      cases hmisfit : g.rules.misfit? g.options.validate with
      | some e' =>
        rw [buildIn_of_misfit? hfinal hmisfit] at h
        exact congrArg some (Except.error.inj h)
      | none =>
        obtain ⟨rules, hrules⟩ :=
          Registry.exists_ofParts_of_isPart (Registry.misfit?_eq_none_iff.mp hmisfit)
        rcases buildIn_ofParts_cases (congrArg Registry.mk hrules) hfinal (mode?.getD g.options.mode) with
          ⟨text, htext⟩ | ⟨e', he', hstructural⟩
        · rw [htext] at h
          cases h
        · rw [he'] at h
          cases h
          exact absurd hstructural he
    · rw [buildIn_of_not_isFinal hfinal] at h
      cases h
      exact absurd ⟨_, rfl, rfl⟩ he
  · rintro ⟨hfinal, hmisfit⟩
    exact buildIn_of_misfit? hfinal hmisfit _

theorem buildsOrRefuses_iff : g.BuildsOrRefuses ↔
    (g.isFinal → ∀ rule ∈ g.rules.entries, rule.2.IsPart) := by
  rw [← @Registry.misfit?_eq_none_iff g.rules g.options.validate]
  constructor
  · intro h hfinal
    cases hmisfit : g.rules.misfit? g.options.validate with
    | none => rfl
    | some e =>
      have herror : g.build none = .error e := buildIn_of_misfit? hfinal hmisfit _
      rcases h none with ⟨text, htext⟩ | ⟨e', he', hstructural⟩
      · rw [herror] at htext
        cases htext
      · rw [herror] at he'
        cases he'
        exact absurd hstructural (Registry.not_isStructural_of_misfit? hmisfit)
  · intro h mode?
    cases hbuild : g.build mode? with
    | ok text => exact Or.inl ⟨text, rfl⟩
    | error e =>
      refine Or.inr ⟨e, rfl, ?_⟩
      by_contra he
      obtain ⟨hfinal, hmisfit⟩ := (build_eq_error_iff_misfit? mode? he).mp hbuild
      rw [h hfinal] at hmisfit
      cases hmisfit

end Grammar

namespace Program

variable {α : Type} {o : Options}

/-- The grammars of a run on a fresh grammar, in the order in which they come about. -/
def grammars (p : Program α) (o : Options) : List Grammar :=
  { options := o } :: (p.history { grammar := { options := o } }).map Return.stored

/-- What holds of a fresh grammar and is kept whenever a value is stored holds of every grammar of
the run. -/
theorem forall_mem_grammars {P : Grammar → Prop} (p : Program α) (hfresh : P { options := o })
    (hstore : ∀ r ∈ p.history { grammar := { options := o } }, P r.after → P r.stored) :
    ∀ g ∈ p.grammars o, P g := by
  have hrun := p.history_induction { grammar := { options := o } } hfresh hstore
  refine List.forall_mem_cons.mpr ⟨hfresh, List.forall_mem_map.mpr fun r hr => ?_⟩
  exact hstore r hr (hrun.1 r hr).2

theorem grammar_exec_mem_grammars (p : Program α) :
    (Session.exec { grammar := { options := o } } p.run).2.grammar ∈ p.grammars o :=
  (p.history_induction { grammar := { options := o } } List.mem_cons_self fun _ hr _ =>
    List.mem_cons_of_mem _ (List.mem_map_of_mem hr)).2

/-- Factories that give nothing but parts leave nothing else in any registry of the run. -/
theorem isPart_of_mem_grammars (p : Program α)
    (h : ∀ r ∈ p.history { grammar := { options := o } }, r.value.IsPart) :
    ∀ g ∈ p.grammars o, ∀ rule ∈ g.rules.entries, rule.2.IsPart := by
  refine p.forall_mem_grammars (List.forall_mem_nil _) fun r hr hafter rule hrule => ?_
  rcases Registry.mem_putEntry _ _ hrule with rfl | hrule
  · exact h r hr
  · exact hafter rule hrule

/-- A run stores rules only under names that are not blank. -/
theorem not_isBlank_of_mem_grammars (p : Program α) :
    ∀ g ∈ p.grammars o, ∀ name ∈ g.rules.names, Name.isBlank name = false := by
  refine p.forall_mem_grammars (List.forall_mem_nil _) fun r hr hafter name hname => ?_
  rcases (Registry.mem_names_put ..).mp hname with rfl | hname
  · rcases call_of_mem_history hr with hcall | ⟨name, hcall, hadmits⟩
    · rw [hcall]
      exact (Name.not_isBlank_iff _).mpr ⟨'r', by decide, by decide⟩
    · rw [hcall]
      exact (Grammar.admits_eq_ok_iff _ _).mp hadmits |>.1
  · exact hafter name hname

/-- In each grammar of a run, whatever its factories do and give, building gives a text or an error
about the registry exactly if the grammar is not final or all its rules are parts. Any other error
is that of the first rule that is no part. Every value that a factory gives is stored as it is, and
no other error arises if the factories give parts alone. -/
theorem build_structural_iff_rules_are_parts (p : Program α) (o : Options) :
    (∀ g ∈ p.grammars o,
      (g.BuildsOrRefuses ↔ (g.isFinal → ∀ rule ∈ g.rules.entries, rule.2.IsPart)) ∧
      ∀ mode? e, ¬ e.IsStructural →
        (g.build mode? = .error e ↔
          g.isFinal ∧ g.rules.misfit? g.options.validate = some e)) ∧
    (∀ r ∈ p.history { grammar := { options := o } },
      r.stored.rules.get? r.call.name = some r.value) ∧
    ((∀ r ∈ p.history { grammar := { options := o } }, r.value.IsPart) →
      ∀ g ∈ p.grammars o, g.BuildsOrRefuses) := by
  refine ⟨fun g _ => ⟨Grammar.buildsOrRefuses_iff, fun mode? e he => ?_⟩, fun r _ => ?_,
    fun h g hg => ?_⟩
  · exact Grammar.build_eq_error_iff_misfit? mode? he
  · rw [Return.stored, Grammar.rules_put, Registry.get?_put, if_pos rfl]
  · exact Grammar.buildsOrRefuses_iff.mpr fun _ => p.isPart_of_mem_grammars h g hg

def rootedInNothing : Program Unit := .root (fun _ => .done (.ok (.data .null))) .done

/-- The call stores what is no rule, and building fails on it in two ways. -/
theorem rootedInNothing_not_refused :
    (Session.exec {} rootedInNothing.run).1 = .ok () ∧
      (Session.exec {} rootedInNothing.run).2.grammar.build none =
        .error (.lacking "NoneType" "options") ∧
      (Session.exec { grammar := { options := { validate := false } } }
        rootedInNothing.run).2.grammar.build none = .error (.unrenderable "NoneType") ∧
      ¬ ∀ g ∈ rootedInNothing.grammars {}, g.BuildsOrRefuses := by
  refine ⟨by cbv, by cbv, by cbv, fun h => ?_⟩
  have hstored : (Session.exec {} rootedInNothing.run).2.grammar ∈ rootedInNothing.grammars {} :=
    List.mem_cons_of_mem _ List.mem_cons_self
  have hparts := Grammar.buildsOrRefuses_iff.mp (h _ hstored) (by cbv)
  obtain ⟨p, hp⟩ := hparts (Name.root, .data .null) List.mem_cons_self
  cases hp

end Program
end GrammarRules
