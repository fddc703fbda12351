import GrammarRules.Highlight
import GrammarRules.Proofs.Grammar.Closed
import GrammarRules.Proofs.Part.Texts

/-!
# One definition a line

No name and no operator holds a line feed, and no token holds the start of an operator, so every
definition falls into its two sides at the first operator, whatever its expression holds. A text has
one line for each definition and one more for each line feed in a literal or a range. So its lines
are its definitions exactly if there is no such line feed.
-/

namespace GrammarRules

theorem Highlight.cut?_append {c : Char} {before : List Char} (h : c ∉ before)
    (mark after : List Char) :
    cut? (c :: mark) (before ++ (c :: mark) ++ after) = some (before, after) := by
  induction before with
  | nil => simp [cut?]
  | cons b before ih =>
    obtain ⟨hb, hbefore⟩ := List.ne_and_not_mem_of_not_mem_cons h
    have hrest := ih hbefore
    rw [List.append_assoc] at hrest
    simpa [cut?, hb] using hrest

def Text.feedLines (text : String) : List (List Char) := text.toList.splitOn '\n'

theorem Text.length_splitOn (c : Char) (cs : List Char) :
    (cs.splitOn c).length = cs.count c + 1 := by
  induction cs with
  | nil => rfl
  | cons d cs ih =>
    rw [List.splitOn_cons_eq_if_modifyHead, List.count_cons]
    split
    · rw [List.length_cons, ih]
    · rw [List.length_modifyHead, ih]

namespace Registry

variable {mode : Mode} {rules : List (String × Part)}

def sides (mode : Mode) (rule : String × Part) : String × String :=
  (Name.token mode rule.1, rule.2.render mode)

/-- The two sides of a line, which is cut at its first operator. -/
def readLine (mode : Mode) (cs : List Char) : Option (String × String) :=
  (Highlight.cut? mode.operator.toList cs).map (Prod.map String.ofList String.ofList)

theorem toList_line (mode : Mode) (rule : String × Part) :
    (line mode rule).toList =
      (Name.token mode rule.1).toList ++ mode.operator.toList ++ rule.2.chars mode := by
  rw [line, String.toList_append, String.toList_append, Part.render, String.toList_ofList]

/-- A definition is cut at its operator, whatever its expression holds. -/
theorem cut?_line (mode : Mode) (rule : String × Part) :
    Highlight.cut? mode.operator.toList (line mode rule).toList =
      some ((Name.token mode rule.1).toList, rule.2.chars mode) := by
  obtain ⟨c, mark, hoperator, hc⟩ :
      ∃ c mark, mode.operator.toList = c :: mark ∧ Name.isTokenChar c = false := by
    cases mode with
    | gbnf => exact ⟨' ', "::= ".toList, by decide, by decide⟩
    | ebnf => exact ⟨':', " ".toList, by decide, by decide⟩
  have hmem : c ∉ (Name.token mode rule.1).toList := by
    intro hmem
    rw [Name.isTokenChar_of_mem_token mode hmem] at hc
    cases hc
  rw [toList_line, hoperator, Highlight.cut?_append hmem]

theorem readLine_line (mode : Mode) (rule : String × Part) :
    readLine mode (line mode rule).toList = some (sides mode rule) := by
  rw [readLine, cut?_line, Option.map_some, Prod.map, String.ofList_toList]
  rfl

def countIn (c : Char) (rules : List (String × Part)) : Nat :=
  Part.countIn c (rules.flatMap fun rule => rule.2.texts)

theorem count_line {c : Char} (hfree : Part.isNotation c = false)
    (hoperator : c ∉ mode.operator.toList) (rule : String × Part) :
    (line mode rule).toList.count c = Part.countIn c rule.2.texts := by
  rw [toList_line, List.count_append, List.count_append, Part.count_token hfree,
    List.count_eq_zero_of_not_mem hoperator, Part.count_chars hfree, Nat.zero_add]

theorem count_feed_line (rule : String × Part) :
    (line mode rule).toList.count '\n' = Part.countIn '\n' rule.2.texts :=
  count_line (by decide) (by cases mode <;> decide) rule

theorem toList_text (mode : Mode) (rules : List (String × Part)) :
    ("\n".intercalate (rules.map (line mode))).toList =
      ['\n'].intercalate (rules.map fun rule => (line mode rule).toList) := by
  rw [String.toList_intercalate, List.map_map]
  rfl

theorem length_feedLines_text (mode : Mode) (hne : rules ≠ []) :
    (Text.feedLines ("\n".intercalate (rules.map (line mode)))).length =
      rules.length + countIn '\n' rules := by
  have hlength : 0 < rules.length := List.length_pos_of_ne_nil hne
  have hlines : (rules.map fun rule => (line mode rule).toList).flatten.count '\n' =
      countIn '\n' rules := by
    rw [← List.flatMap_def, List.count_flatMap, countIn, Part.countIn_flatMap]
    exact congrArg List.sum (List.map_congr_left fun rule _ => count_feed_line rule)
  rw [Text.feedLines, Text.length_splitOn, toList_text, Text.count_intercalate, hlines,
    List.length_map, List.count_singleton_self]
  omega

theorem feedLines_text_eq_iff (mode : Mode) (hne : rules ≠ []) :
    (Text.feedLines ("\n".intercalate (rules.map (line mode)))).map (readLine mode) =
        rules.map (fun rule => some (sides mode rule)) ↔
      ∀ rule ∈ rules, ∀ text ∈ rule.2.texts, '\n' ∉ text.toList := by
  have hcount : countIn '\n' rules = 0 ↔
      ∀ rule ∈ rules, ∀ text ∈ rule.2.texts, '\n' ∉ text.toList := by
    rw [countIn, Part.countIn_eq_zero_iff]
    simp only [List.mem_flatMap]
    constructor
    · intro h rule hrule text htext
      exact h text ⟨rule, hrule, htext⟩
    · rintro h text ⟨rule, hrule, htext⟩
      exact h rule hrule text htext
  constructor
  · intro h
    have hlength := congrArg List.length h
    rw [List.length_map, List.length_map, length_feedLines_text mode hne] at hlength
    exact hcount.mp (by omega)
  · intro h
    have hlines : ∀ cs ∈ rules.map fun rule => (line mode rule).toList, '\n' ∉ cs := by
      intro cs hcs
      obtain ⟨rule, hrule, rfl⟩ := List.mem_map.mp hcs
      rw [← List.count_eq_zero, count_feed_line, Part.countIn_eq_zero_iff]
      exact h rule hrule
    rw [Text.feedLines, toList_text, List.splitOn_intercalate _ hlines (by simpa using hne),
      List.map_map]
    exact List.map_congr_left fun rule _ => readLine_line mode rule

end Registry

namespace Grammar

open Registry

/-- Each definition of a built text falls into its name and its expression at its first operator.
The text has one line for each definition and one more for each line feed in a literal or a range,
and its lines are the definitions, in their order, exactly if there is no such line feed. -/
theorem lines_of_build_are_definitions_iff (g : Grammar) (rules : List (String × Part))
    (hrules : g.rules = .ofParts rules) (mode? : Option Mode) (text : String)
    (hbuild : g.build mode? = .ok text) :
    let mode := mode?.getD g.options.mode
    text = "\n".intercalate (rules.map (line mode)) ∧
    (∀ rule ∈ rules, readLine mode (line mode rule).toList = some (sides mode rule)) ∧
    (Text.feedLines text).length = rules.length + countIn '\n' rules ∧
    ((Text.feedLines text).map (readLine mode) = rules.map (fun rule => some (sides mode rule)) ↔
      ∀ rule ∈ rules, ∀ text ∈ rule.2.texts, '\n' ∉ text.toList) := by
  intro mode
  have hne : rules ≠ [] := by
    rintro rfl
    have hfinal := isFinal_of_buildIn hbuild
    rw [isFinal_iff, hrules, names_ofParts] at hfinal
    cases hfinal
  have htext : text = "\n".intercalate (rules.map (line mode)) :=
    ((buildIn_eq_ok_iff hrules).mp hbuild).2.2
  rw [htext]
  exact ⟨rfl, fun rule _ => readLine_line mode rule, length_feedLines_text mode hne,
    feedLines_text_eq_iff mode hne⟩

def madeBy (steps : List Step) : Grammar := ((Session.runAll steps).run.run {}).2.grammar

def spacedRules : List (String × Part) :=
  [("a", .oneOf [.literal "b: \"c\"", .range "[: /]" (some .zeroOrMore)] none),
    (Name.root, .ref "a" none)]

def spaced : Grammar :=
  madeBy [.define "a" (.oneOf [.literal "b: \"c\"", .range "[: /]*"]), .root (.ref "a")]

theorem lines_of_build_spaced_are_definitions :
    spaced.rules = .ofParts spacedRules ∧
      spaced.build (some .ebnf) = .ok "a: (\"b: \\\"c\\\"\" | /[: \\/]/*)\nstart: a" ∧
      (Text.feedLines "a: (\"b: \\\"c\\\"\" | /[: \\/]/*)\nstart: a").map (readLine .ebnf) =
        spacedRules.map (fun rule => some (sides .ebnf rule)) := by
  have hrules : spaced.rules = .ofParts spacedRules := by cbv
  have hbuild : spaced.build (some .ebnf) =
      .ok "a: (\"b: \\\"c\\\"\" | /[: \\/]/*)\nstart: a" := by cbv
  have h := lines_of_build_are_definitions_iff spaced spacedRules hrules (some .ebnf) _ hbuild
  exact ⟨hrules, hbuild, h.2.2.2.mpr (by decide)⟩

/-- A line feed in a literal or in a range breaks the line of a definition, in either notation. -/
theorem line_feed_breaks_definition :
    (madeBy [.root (.literal "a\nb")]).build (some .gbnf) = .ok "root ::= \"a\nb\"" ∧
      (Text.feedLines "root ::= \"a\nb\"").length = 2 ∧
      (madeBy [.root (.literal "a\nb")]).rules.size = 1 ∧
    (madeBy [.root (.range "[\n]")]).build (some .ebnf) = .ok "start: /[\n]/" ∧
      (Text.feedLines "start: /[\n]/").length = 2 ∧
      (madeBy [.root (.range "[\n]")]).rules.size = 1 := by
  refine ⟨by cbv, by cbv, by cbv, by cbv, by cbv, by cbv⟩

end Grammar
end GrammarRules
