import GrammarRules.Proofs.Command.Deliver

/-!
# Loading the grammar that a target names

A target is the name of a module and that of a member of it, on either side of its first colon. A
target that names no grammar is refused as wrongly used, unless the call of what it names fails by
itself. The one exception is a module name that starts with a dot: it is taken for a relative name,
and the failure to find out what it is relative to is not handled.
-/

namespace GrammarRules.Command

def TargetError.failure (e : TargetError) : Failure :=
  match e with
  | .relative _ | .uncallable _ => .target e
  | .malformed _ | .notFound .. | .noMember .. | .notGrammar .. => .usage (.badTarget e)

theorem refuse_eq (e : TargetError) : refuse e = (.failed e.failure, {}) := by
  cases e <;> rfl

def Member.load (target : String) : Member → Except Failure Session
  | .grammar g => .ok { grammar := g }
  | .factory r =>
      match r.follow with
      | (.ok _, s) => .ok s
      | (.error e, _) => .error (.error e)
  | .other kind => .error (TargetError.notGrammar target kind).failure
  | .demanding complaint => .error (TargetError.uncallable complaint).failure

theorem Member.load_eq_ok_iff {target : String} {m : Member} {s : Session} :
    m.load target = .ok s ↔ m.follow? = some (.ok (), s) := by
  cases m with
  | grammar g => simp [load, follow?]
  | factory r => rcases hfollow : r.follow with ⟨e | _, s'⟩ <;> simp [load, follow?, hfollow]
  | other kind => simp [load, follow?]
  | demanding complaint => simp [load, follow?]

/-- How the call of a member fails by itself. -/
def Member.raises? : Member → Option Failure
  | .grammar _ => none
  | .factory r =>
      match r.follow.1 with
      | .ok _ => none
      | .error e => some (.error e)
  | .other _ => none
  | .demanding complaint => some (.target (.uncallable complaint))

/-- A member holds or makes a grammar, or is something else, or its call fails. -/
theorem Member.load_cases (target : String) (m : Member) :
    (∃ s, m.load target = .ok s) ∨
    (∃ e, m.load target = .error (.usage (.badTarget e))) ∨
    ∃ f, m.raises? = some f ∧ m.load target = .error f := by
  cases m with
  | grammar g => exact Or.inl ⟨_, rfl⟩
  | factory r =>
    rcases hfollow : r.follow with ⟨e | _, s⟩
    · exact Or.inr (Or.inr ⟨.error e, by simp only [raises?, hfollow],
        by simp only [load, hfollow]⟩)
    · exact Or.inl ⟨s, by simp only [load, hfollow]⟩
  | other kind => exact Or.inr (Or.inl ⟨_, rfl⟩)
  | demanding complaint => exact Or.inr (Or.inr ⟨_, rfl, rfl⟩)

namespace Target

def load (modules : List Module) (target : String) : Except Failure Session :=
  match resolve modules target with
  | .error e => .error e.failure
  | .ok m => m.load target

/-- A target has a name in front of its first colon and a name behind it. -/
structure Splits (target name member : String) : Prop where
  joined : target = name ++ ":" ++ member
  first : ':' ∉ name.toList
  name_ne : name ≠ ""
  member_ne : member ≠ ""

def IsRelative (name : String) : Prop := name.toList.head? = some '.'

def Names (modules : List Module) (target : String) (m : Member) : Prop :=
  ∃ name member found, Splits target name member ∧ ¬ IsRelative name ∧
    modules.find? (fun candidate => candidate.name = name) = some found ∧
    found.member? member = some m

/-- A target leads to a grammar, or is refused as wrongly used, or the call of what it names fails
by itself. -/
def LoadedOrRefused (modules : List Module) (target : String) : Prop :=
  (∃ s, load modules target = .ok s) ∨
  (∃ e, load modules target = .error (.usage (.badTarget e))) ∨
  ∃ m f, Names modules target m ∧ m.raises? = some f ∧ load modules target = .error f

variable {modules : List Module} {target name member : String} {m : Member}

theorem split?_of_append {front back : List Char} (h : ':' ∉ front)
    (htarget : target.toList = front ++ ':' :: back) :
    split? target =
      if front.isEmpty || back.isEmpty then none
      else some (String.ofList front, String.ofList back) := by
  have hfront : target.toList.takeWhile (· ≠ ':') = front := by
    have hkept : ∀ c ∈ front, (c ≠ ':' : Bool) = true := by
      intro c hc
      exact decide_eq_true fun heq => h (heq ▸ hc)
    rw [htarget, List.takeWhile_append_of_pos hkept, List.takeWhile_cons_of_neg (by simp),
      List.append_nil]
  simp only [split?, hfront]
  rw [htarget, List.drop_left, List.tail_cons]

theorem split?_eq_none (h : ':' ∉ target.toList) : split? target = none := by
  have hall : target.toList.takeWhile (· ≠ ':') = target.toList := by
    refine List.takeWhile_eq_self_iff.mpr fun c hc => ?_
    exact decide_eq_true fun heq => h (heq ▸ hc)
  simp only [split?, hall, List.drop_length, List.tail_nil, List.isEmpty_nil, Bool.or_true, if_true]

theorem Splits.toList_eq (h : Splits target name member) :
    target.toList = name.toList ++ ':' :: member.toList := by
  rw [h.joined, String.toList_append, String.toList_append, List.append_assoc]
  rfl

theorem split?_eq_some_iff : split? target = some (name, member) ↔ Splits target name member := by
  constructor
  · intro h
    by_cases hcolon : ':' ∈ target.toList
    · obtain ⟨front, back, htarget, hfirst⟩ := List.eq_append_cons_of_mem hcolon
      rw [split?_of_append hfirst htarget] at h
      split at h
      · cases h
      · next hne =>
        cases h
        simp only [Bool.or_eq_true, List.isEmpty_iff, not_or] at hne
        have hjoined : target = String.ofList front ++ ":" ++ String.ofList back := by
          rw [← String.toList_inj, htarget]
          simp
        exact ⟨hjoined, by rwa [String.toList_ofList], by simpa using hne.1, by simpa using hne.2⟩
    · rw [split?_eq_none hcolon] at h
      cases h
  · intro h
    have hne : ¬ (name.toList.isEmpty || member.toList.isEmpty) = true := by
      simp [h.name_ne, h.member_ne]
    rw [split?_of_append h.first (h.toList_eq), if_neg hne, String.ofList_toList,
      String.ofList_toList]

theorem nameOf_reverse_pieces (name : String) : nameOf (pieces name).reverse = name := by
  rw [nameOf, pieces, List.reverse_reverse, List.intercalate_splitOn, String.ofList_toList]

/-- A module is found only by its full name. -/
theorem find_eq_ok_iff {found : Module} :
    find modules (pieces name).reverse = .ok found ↔
      modules.find? (fun candidate => candidate.name = name) = some found := by
  have hname := nameOf_reverse_pieces name
  have hne : (pieces name).reverse ≠ [] := by
    rw [ne_eq, List.reverse_eq_nil_iff]
    exact List.splitOn_ne_nil '.' name.toList
  obtain ⟨piece, parents, hpieces⟩ := List.exists_cons_of_ne_nil hne
  rw [hpieces] at hname ⊢
  simp only [find, hname]
  cases modules.find? (fun candidate => candidate.name = name) with
  | some candidate => simp
  | none =>
    simp only [reduceCtorEq, iff_false]
    split
    · nofun
    · cases find modules parents <;> nofun

theorem findModule_eq_ok_iff {found : Module} :
    findModule modules name = .ok found ↔
      ¬ IsRelative name ∧ modules.find? (fun candidate => candidate.name = name) = some found := by
  rw [← find_eq_ok_iff, findModule, IsRelative]
  split
  · next hdot => simp [hdot]
  · next hdot =>
    rw [and_iff_right hdot]
    cases find modules (pieces name).reverse <;> simp

/-- Apart from a relative name, a module that is not found is reported as that. -/
theorem findModule_eq_error {e : TargetError} (h : findModule modules name = .error e) :
    IsRelative name ∧ e = .relative name ∨
      ¬ IsRelative name ∧ ∃ missing inside, e = .notFound name missing inside := by
  rw [findModule] at h
  split at h
  · next hdot =>
    cases h
    exact Or.inl ⟨hdot, rfl⟩
  · next hdot =>
    split at h
    · cases h
    · next missing inside _ =>
      cases h
      exact Or.inr ⟨hdot, missing, inside, rfl⟩

theorem resolve_of_splits (h : Splits target name member) :
    resolve modules target =
      match findModule modules name with
      | .error e => .error e
      | .ok found =>
          match found.member? member with
          | some m => .ok m
          | none => .error (.noMember name member) := by
  have hsplit := split?_eq_some_iff.mpr h
  cases hmodule : findModule modules name with
  | error e => simp only [resolve, hsplit, hmodule]
  | ok found =>
    cases hmember : found.member? member <;> simp only [resolve, hsplit, hmodule, hmember]

theorem resolve_eq_ok_iff : resolve modules target = .ok m ↔ Names modules target m := by
  constructor
  · intro h
    cases hsplit : split? target with
    | none => rw [resolve, hsplit] at h; cases h
    | some parts =>
      obtain ⟨name, member⟩ := parts
      have hsplits := split?_eq_some_iff.mp hsplit
      rw [resolve_of_splits hsplits] at h
      split at h
      · cases h
      · next found hfound =>
        split at h
        · next _ hmember =>
          cases h
          obtain ⟨habsolute, hfind⟩ := findModule_eq_ok_iff.mp hfound
          exact ⟨name, member, found, hsplits, habsolute, hfind, hmember⟩
        · cases h
  · rintro ⟨name, member, found, hsplits, habsolute, hfind, hmember⟩
    rw [resolve_of_splits hsplits, findModule_eq_ok_iff.mpr ⟨habsolute, hfind⟩]
    simp only [hmember]

/-- What leads to no member is wrongly used, but for a relative name. -/
theorem resolve_eq_error {e : TargetError} (h : resolve modules target = .error e) :
    (∃ name member, Splits target name member ∧ IsRelative name ∧ e = .relative name) ∨
      e.failure = .usage (.badTarget e) := by
  cases hsplit : split? target with
  | none =>
    rw [resolve, hsplit] at h
    cases h
    exact Or.inr rfl
  | some parts =>
    obtain ⟨name, member⟩ := parts
    have hsplits := split?_eq_some_iff.mp hsplit
    rw [resolve_of_splits hsplits] at h
    split at h
    · next _ hfound =>
      cases h
      rcases findModule_eq_error hfound with ⟨hrelative, rfl⟩ | ⟨-, missing, inside, rfl⟩
      · exact Or.inl ⟨name, member, hsplits, hrelative, rfl⟩
      · exact Or.inr rfl
    · split at h
      · cases h
      · cases h
        exact Or.inr rfl

theorem load_of_names (h : Names modules target m) : load modules target = m.load target := by
  rw [load, resolve_eq_ok_iff.mpr h]

theorem load_of_relative (h : Splits target name member) (hrelative : IsRelative name) :
    load modules target = .error (.target (.relative name)) := by
  have hmodule : findModule modules name = .error (.relative name) := by
    rw [findModule]
    exact if_pos hrelative
  rw [load, resolve_of_splits h, hmodule]
  rfl

theorem not_names_of_relative (h : Splits target name member) (hrelative : IsRelative name) :
    ¬ Names modules target m := by
  rintro ⟨name', member', found, hsplits, habsolute, -⟩
  have hparts := (split?_eq_some_iff.mpr h).symm.trans (split?_eq_some_iff.mpr hsplits)
  cases hparts
  exact habsolute hrelative

theorem loadedOrRefused_iff :
    LoadedOrRefused modules target ↔
      ∀ name member, Splits target name member → ¬ IsRelative name := by
  constructor
  · intro h name member hsplits hrelative
    have hload : load modules target = .error (.target (.relative name)) :=
      load_of_relative hsplits hrelative
    rcases h with ⟨s, hs⟩ | ⟨e, he⟩ | ⟨m, f, hnames, -⟩
    · rw [hload] at hs
      cases hs
    · rw [hload] at he
      cases he
    · exact not_names_of_relative hsplits hrelative hnames
  · intro h
    cases hresolve : resolve modules target with
    | ok m =>
      have hnames := resolve_eq_ok_iff.mp hresolve
      rcases m.load_cases target with ⟨s, hs⟩ | ⟨e, he⟩ | ⟨f, hf, hload⟩
      · exact Or.inl ⟨s, (load_of_names hnames).trans hs⟩
      · exact Or.inr (Or.inl ⟨e, (load_of_names hnames).trans he⟩)
      · exact Or.inr (Or.inr ⟨m, f, hnames, hf, (load_of_names hnames).trans hload⟩)
    | error e =>
      rcases resolve_eq_error hresolve with ⟨name, member, hsplits, hrelative, -⟩ | hfailure
      · exact absurd hrelative (h name member hsplits)
      · refine Or.inr (Or.inl ⟨e, ?_⟩)
        simp only [load, hresolve, hfailure]

/-- A target is loaded exactly if it names a member that is a grammar or makes one. -/
theorem load_eq_ok_iff {s : Session} :
    load modules target = .ok s ↔
      ∃ m, Names modules target m ∧ m.follow? = some (.ok (), s) := by
  constructor
  · intro h
    cases hresolve : resolve modules target with
    | error e =>
      rw [load, hresolve] at h
      cases h
    | ok m =>
      have hnames := resolve_eq_ok_iff.mp hresolve
      rw [load_of_names hnames] at h
      exact ⟨m, hnames, Member.load_eq_ok_iff.mp h⟩
  · rintro ⟨m, hnames, hfollow⟩
    rw [load_of_names hnames, Member.load_eq_ok_iff.mpr hfollow]

end Target

variable {columns : Nat} {modules : List Module} {verbose : Bool} {target : String} {d : Delivery}

/-- The command goes on with what is loaded. -/
theorem deliverTarget_of_load_ok (hpath : ∀ path ∈ d.output, '\x00' ∉ path.toList) {s : Session}
    (h : Target.load modules target = .ok s) :
    deliverTarget columns modules verbose target d =
      deliver columns verbose d (shown columns verbose s) s.cleared := by
  obtain ⟨m, hnames, hfollow⟩ := Target.load_eq_ok_iff.mp h
  rw [deliverTarget_eq hpath (Target.resolve_eq_ok_iff.mpr hnames) hfollow]

/-- And it ends with the failure to load it. -/
theorem deliverTarget_of_load_error (hpath : ∀ path ∈ d.output, '\x00' ∉ path.toList) {f : Failure}
    (h : Target.load modules target = .error f) :
    (deliverTarget columns modules verbose target d).1 = .failed f := by
  unfold deliverTarget
  rw [any_null_eq_false hpath, if_neg Bool.false_ne_true]
  rw [Target.load] at h
  cases hresolve : Target.resolve modules target with
  | error e =>
    rw [hresolve] at h
    cases h
    exact congrArg Prod.fst (refuse_eq e)
  | ok m =>
    rw [hresolve] at h
    cases m with
    | grammar g => cases h
    | factory r =>
      rcases hfollow : r.follow with ⟨e | _, s⟩
      · simp only [Member.load, hfollow] at h
        cases h
        simp only [deliverRecipe, hfollow]
      · simp only [Member.load, hfollow] at h
        cases h
    | other kind =>
      cases h
      rfl
    | demanding complaint =>
      cases h
      rfl

/-- A target leads to a grammar, or is refused as wrongly used, or the call of what it names fails
by itself, exactly if its module name does not start with a dot. If it does, the failure that ends
the command is another one. It leads to a grammar exactly if it names a member that is one or makes
one, and the command goes on with that grammar, or ends with the failure to load it. -/
theorem target_loaded_or_refused_iff_not_relative (modules : List Module) (target : String) :
    (Target.LoadedOrRefused modules target ↔
      ∀ name member, Target.Splits target name member → ¬ Target.IsRelative name) ∧
    (∀ name member, Target.Splits target name member → Target.IsRelative name →
      Target.load modules target = .error (.target (.relative name))) ∧
    (∀ s, Target.load modules target = .ok s ↔
      ∃ m, Target.Names modules target m ∧ m.follow? = some (.ok (), s)) ∧
    ∀ columns verbose d, (∀ path ∈ d.output, '\x00' ∉ path.toList) →
      (∀ s, Target.load modules target = .ok s →
        (Request.build verbose target d).run columns modules =
          deliver columns verbose d (shown columns verbose s) s.cleared) ∧
      ∀ f, Target.load modules target = .error f →
        ((Request.build verbose target d).run columns modules).1 = .failed f := by
  refine ⟨Target.loadedOrRefused_iff, fun name member => Target.load_of_relative,
    fun s => Target.load_eq_ok_iff, fun columns verbose d hpath => ⟨fun s => ?_, fun f => ?_⟩⟩
  · exact deliverTarget_of_load_ok hpath
  · exact deliverTarget_of_load_error hpath

def colonModule : Module where
  name := "pkg.rules"
  members := [("a:b", .grammar {})]

theorem member_with_colon_loaded :
    Target.load [colonModule] "pkg.rules:a:b" = .ok { grammar := {} } ∧
    (Request.build false "pkg.rules:a:b" {}).run Console.usualColumns [colonModule] =
      (.exit 1, { stderr := "Error: No root rule defined\n" }) := by
  obtain ⟨-, -, hloaded, hrun⟩ :=
    target_loaded_or_refused_iff_not_relative [colonModule] "pkg.rules:a:b"
  have hsplits : Target.Splits "pkg.rules:a:b" "pkg.rules" "a:b" :=
    ⟨by decide, by decide, by decide, by decide⟩
  have hnames : Target.Names [colonModule] "pkg.rules:a:b" (.grammar {}) :=
    ⟨"pkg.rules", "a:b", colonModule, hsplits, by simp [Target.IsRelative], rfl, rfl⟩
  have hload := (hloaded { grammar := {} }).mpr ⟨.grammar {}, hnames, rfl⟩
  refine ⟨hload, ?_⟩
  rw [(hrun _ false {} (by simp)).1 _ hload]
  decide +kernel

/-- A target that starts with a dot, as a path does, is not refused as wrongly used. -/
theorem path_not_refused :
    ¬ Target.LoadedOrRefused [] "./grammars.py:g" ∧
    run [] ["build", "./grammars.py:g"] = (.failed (.target (.relative "./grammars.py")), {}) ∧
    run [] ["build", ".pkg:g"] = (.failed (.target (.relative ".pkg")), {}) := by
  have hsplits : Target.Splits "./grammars.py:g" "./grammars.py" "g" :=
    ⟨by decide, by decide, by decide, by decide⟩
  refine ⟨fun h => ?_, rfl, rfl⟩
  exact Target.loadedOrRefused_iff.mp h _ _ hsplits rfl

end GrammarRules.Command
