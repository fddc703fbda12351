import GrammarRules.Options
import GrammarRules.Proofs.Text.Folded

/-!
# The environment that options follow

The value of the variable counts only as its trimmed lower case, so that neither the case of its
ASCII letters nor blanks around it make a difference, not even to the warning about a value that is
not known. What options say of warnings themselves keeps them from looking at the variable.
-/

namespace GrammarRules

variable {value value' before after : String}

theorem Text.trim_lower_between_blanks (hcase : value'.map Char.toLower = value.map Char.toLower)
    (hbefore : ∀ c ∈ before.toList, isBlank c) (hafter : ∀ c ∈ after.toList, isBlank c) :
    trim (lower (before ++ value' ++ after)) = trim (lower value) := by
  have hlower := congrArg String.toList (lower_eq_of_map_toLower_eq hcase)
  rw [lower, lower, String.toList_ofList, String.toList_ofList] at hlower
  rw [trim, trim, lower, lower, String.toList_ofList, String.toList_ofList, String.toList_append,
    String.toList_append, lowerFrom_between_blanks hbefore hafter,
    trimChars_between_blanks hbefore hafter, hlower]

theorem Environment.read_between_blanks
    (hcase : value'.map Char.toLower = value.map Char.toLower)
    (hbefore : ∀ c ∈ before.toList, Text.isBlank c)
    (hafter : ∀ c ∈ after.toList, Text.isBlank c) :
    read (some (before ++ value' ++ after)) = read (some value) := by
  rw [read, read, Option.getD_some, Option.getD_some,
    Text.trim_lower_between_blanks hcase hbefore hafter]

namespace Options

theorem ofEnvironment_congr {given? given?' : Option String}
    (h : Environment.read given? = Environment.read given?') (fields : Data.Fields) :
    ofEnvironment given? fields = ofEnvironment given?' fields := by
  have hproduction : Environment.isProduction given? = Environment.isProduction given?' := by
    rw [Environment.isProduction, Environment.isProduction, h]
  simp only [ofEnvironment, Environment.shouldWarn, hproduction]

/-- A field that is told once more makes no difference. -/
theorem ofFields_cons_of_lookup {name : String} {told : Data} {fields : Data.Fields}
    (h : fields.lookup name = some told) : ofFields ((name, told) :: fields) = ofFields fields := by
  have hlookup (other : String) :
      List.lookup other ((name, told) :: fields) = fields.lookup other := by
    by_cases hother : other = name
    · rw [hother, List.lookup_cons_self, h]
    · rw [List.lookup_cons, beq_false_of_ne hother]
  simp only [ofFields, field, hlookup]

theorem ofEnvironment_of_told {told : Data} {fields : Data.Fields}
    (h : fields.lookup warnField = some told) (hnull : told ≠ .null) (given? : Option String) :
    ofEnvironment given? fields = (ofFields fields, []) := by
  have htold : toldWarn fields = some told := by
    rw [toldWarn, h]
    cases told with
    | null => exact absurd rfl hnull
    | _ => rfl
  simp only [ofEnvironment, htold, Environment.shouldWarn, ofFields_cons_of_lookup h]

/-- The environment and the warning about it are the same for a value whose ASCII letters have
another case and that has blanks around it, and so are the options that follow it, whatever else is
told about them. Options that are told whether to warn are the same for every value of the variable,
set or not: they are the ones that do not follow it, and nothing is logged. -/
theorem environment_followed_modulo_case_and_blanks (value value' before after : String)
    (hcase : value'.map Char.toLower = value.map Char.toLower)
    (hbefore : ∀ c ∈ before.toList, Text.isBlank c)
    (hafter : ∀ c ∈ after.toList, Text.isBlank c) :
    Environment.read (some (before ++ value' ++ after)) = Environment.read (some value) ∧
    (∀ fields, ofEnvironment (some (before ++ value' ++ after)) fields =
      ofEnvironment (some value) fields) ∧
    ∀ fields told, fields.lookup warnField = some told → told ≠ .null →
      ∀ given?, ofEnvironment given? fields = (ofFields fields, []) := by
  have hread := Environment.read_between_blanks hcase hbefore hafter
  refine ⟨hread, fun fields => ofEnvironment_congr hread fields, ?_⟩
  intro fields told htold hnull given?
  exact ofEnvironment_of_told htold hnull given?

/-- A sigma stays final between a letter in either case and a no-break space, and the warning shows
the same value. What is told in words about warnings counts whatever the variable holds. -/
theorem final_sigma_followed_between_blanks :
    Environment.read (some "\x1c\u2003DEvΣ\u00a0") =
      (.development, [.unknownEnvironment "devς"]) ∧
    ∀ given?, ofEnvironment given? [("debug", .flag true), (warnField, .text "off")] =
      (.ok { warn := false, debug := true }, []) := by
  have hplain : Environment.read (some "deVΣ") =
      (.development, [.unknownEnvironment "devς"]) := by
    decide +kernel
  have hcase : "DEvΣ".map Char.toLower = "deVΣ".map Char.toLower := by
    rw [← String.toList_inj, String.toList_map, String.toList_map]
    decide
  have hbefore : "\x1c\u2003".toList.all Text.isBlank := by decide
  have hafter : "\u00a0".toList.all Text.isBlank := by decide
  obtain ⟨hread, -, htold⟩ := environment_followed_modulo_case_and_blanks "deVΣ" "DEvΣ"
    "\x1c\u2003" "\u00a0" hcase (List.all_eq_true.mp hbefore) (List.all_eq_true.mp hafter)
  refine ⟨hread.trans hplain, fun given? => ?_⟩
  have hfields : ofFields [("debug", .flag true), (warnField, .text "off")] =
      .ok { warn := false, debug := true } := by
    cbv
  rw [htold _ (.text "off") rfl (by simp) given?, hfields]

end Options
end GrammarRules
