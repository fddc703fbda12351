import GrammarRules.Proofs.Session.Program

/-!
# The log of successful calls

A log lists the calls that succeeded, each with the value that its factory gave. It tells what a
registry should hold without keeping one: names, values and warnings are read off the log, and so is
how the next call ends. A call that succeeds is added at its end.
-/

namespace GrammarRules

abbrev Log := List (Call × Value)

namespace Log

variable (o : Options) (log : Log) (call : Call) (given : Except Error Value)

def defined : List String :=
  log.filterMap fun entry =>
    match entry.1 with
    | .define name => some name
    | .root => none

def HasRoot : Prop := Call.root ∈ log.map Prod.fst

instance : Decidable log.HasRoot := inferInstanceAs (Decidable (_ ∈ _))

/-- The names in the order of their first successes, and the root after them. -/
def names : List String := log.defined.eraseDups ++ if log.HasRoot then [Name.root] else []

def last? (name : String) : Option Value :=
  (log.reverse.find? fun entry => entry.1.name = name).map Prod.snd

/-- Those of the names that have occurred before, here or in `seen`, each as often as it recurs. -/
def repeats (seen : List String) : List String → List String
  | [] => []
  | name :: names =>
      if name ∈ seen then name :: repeats (name :: seen) names else repeats (name :: seen) names

def warnings : List Event :=
  if o.warn then (repeats [] log.defined).map .ruleReplaced else []

/-- What a call is refused for, in the order in which it is looked at. -/
def refusals : List (Option Error) :=
  match call with
  | .define name =>
      [if ∃ c ∈ name.toList, c.isAlphanum then none else some (.grammar (.blankName name none)),
        if name = Name.root then
          some (.grammar { fault := .reservedName, context := some ⟨name, o.mode⟩ })
        else none,
        if log.HasRoot then
          some (.grammar { fault := .finalized, context := some ⟨name, o.mode⟩ })
        else none]
  | .root => []

def causes : List (Option Error) :=
  log.refusals o call ++
    [match given with
      | .error e => some e
      | .ok _ => none]

def firstOf : List (Option Error) → Except Error Unit
  | [] => .ok ()
  | none :: causes => firstOf causes
  | some e :: _ => .error e

def answer : Except Error Unit := firstOf (log.causes o call given)

variable {o log call} {name key : String} {value : Value}

theorem answer_eq : log.answer o call given =
    match firstOf (log.refusals o call) with
    | .error e => .error e
    | .ok _ => given.map fun _ => () := by
  simp only [answer, causes]
  induction log.refusals o call with
  | nil => cases given <;> rfl
  | cons cause causes ih =>
    cases cause with
    | none => exact ih
    | some e => rfl

theorem refusals_define_eq_ok_iff : firstOf (log.refusals o (.define name)) = .ok () ↔
    (∃ c ∈ name.toList, c.isAlphanum) ∧ name ≠ Name.root ∧ ¬ log.HasRoot := by
  rw [refusals]
  split_ifs with hblank hname hroot hroot <;> simp [firstOf, *]

theorem answer_define_eq_ok_iff : log.answer o (.define name) given = .ok () ↔
    (∃ c ∈ name.toList, c.isAlphanum) ∧ name ≠ Name.root ∧ ¬ log.HasRoot ∧
      ∃ value, given = .ok value := by
  rw [answer_eq, ← and_assoc, ← and_assoc, and_assoc (a := ∃ _, _), ← refusals_define_eq_ok_iff]
  cases firstOf (log.refusals o (.define name)) with
  | error e => simp
  | ok _ => cases given <;> simp [Except.map]

theorem answer_root_eq_ok_iff :
    log.answer o .root given = .ok () ↔ ∃ value, given = .ok value := by
  cases given <;> simp [answer, causes, refusals, firstOf]

theorem hasRoot_concat : HasRoot (log ++ [(call, value)]) ↔ log.HasRoot ∨ call = .root := by
  simp [HasRoot, eq_comm]

theorem defined_concat_define :
    defined (log ++ [(.define name, value)]) = log.defined ++ [name] := by
  simp [defined]

theorem defined_concat_root : defined (log ++ [(.root, value)]) = log.defined := by
  simp [defined]

theorem last?_concat :
    last? (log ++ [(call, value)]) key = if key = call.name then some value else log.last? key := by
  by_cases h : key = call.name
  · simp [last?, h]
  · simp [last?, h, Ne.symm h]

theorem eraseDups_concat (names : List String) (name : String) :
    (names ++ [name]).eraseDups =
      if name ∈ names then names.eraseDups else names.eraseDups ++ [name] := by
  rw [List.eraseDups_append]
  by_cases h : name ∈ names
  · simp [List.removeAll, h]
  · simp [List.removeAll, h, List.eraseDups_cons]

theorem mem_names : key ∈ log.names ↔ key ∈ log.defined ∨ log.HasRoot ∧ key = Name.root := by
  by_cases h : log.HasRoot <;> simp [names, h]

theorem names_concat_define (hroot : ¬ log.HasRoot) :
    names (log ++ [(.define name, value)]) =
      if name ∈ log.names then log.names else log.names ++ [name] := by
  have hroot' : ¬ HasRoot (log ++ [(.define name, value)]) := by
    rw [hasRoot_concat]
    simp [hroot]
  simp only [names, hroot, hroot', if_false, List.append_nil, defined_concat_define,
    eraseDups_concat, List.mem_eraseDups]

theorem names_concat_root (hdefined : Name.root ∉ log.defined) :
    names (log ++ [(.root, value)]) =
      if Name.root ∈ log.names then log.names else log.names ++ [Name.root] := by
  have hroot' : HasRoot (log ++ [(.root, value)]) := hasRoot_concat.mpr (Or.inr rfl)
  by_cases hroot : log.HasRoot
  · simp [names, hroot, hroot', defined_concat_root]
  · simp [names, hroot, hroot', defined_concat_root, hdefined]

theorem repeats_concat (seen names : List String) (name : String) :
    repeats seen (names ++ [name]) =
      repeats seen names ++ if name ∈ names ∨ name ∈ seen then [name] else [] := by
  induction names generalizing seen with
  | nil => simp [repeats]
  | cons n names ih =>
    have hseen : (name ∈ names ∨ name ∈ n :: seen) ↔ (name ∈ n :: names ∨ name ∈ seen) := by
      simp only [List.mem_cons]
      tauto
    rw [List.cons_append, repeats, repeats, ih (n :: seen), if_congr hseen rfl rfl]
    split
    · rfl
    · rfl

theorem warnings_concat_define :
    warnings o (log ++ [(.define name, value)]) =
      log.warnings o ++ if name ∈ log.defined ∧ o.warn then [.ruleReplaced name] else [] := by
  rw [warnings, warnings, defined_concat_define, repeats_concat]
  by_cases hwarn : o.warn
  · by_cases hmem : name ∈ log.defined <;> simp [hwarn, hmem]
  · simp [hwarn]

theorem warnings_concat_root : warnings o (log ++ [(.root, value)]) = log.warnings o := by
  rw [warnings, warnings, defined_concat_root]

end Log
end GrammarRules
