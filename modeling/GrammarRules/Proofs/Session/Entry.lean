import GrammarRules.Proofs.Grammar.Lines
import GrammarRules.Proofs.Session.Calls

/-!
# The definition a reader starts from

The root rule is written last, under the entry token of the notation. Only the name `root` is kept
from being defined, not the other names that are written like the entry token. So the definitions
under that token are those of the defined names that are written so, and after them the root rule,
which is alone exactly if no such name was defined.
-/

namespace GrammarRules

namespace Registry

variable {mode : Mode} {front : List (String × Part)} {p : Part}

/-- The rules whose definitions have the entry token on their left side. -/
def atEntry (mode : Mode) (rules : List (String × Part)) : List (String × Part) :=
  rules.filter fun rule => (sides mode rule).1 = mode.entryToken

theorem atEntry_concat_root (hfront : Name.root ∉ front.map Prod.fst) :
    atEntry mode (front ++ [(Name.root, p)]) =
      front.filter (fun rule => Name.normalize mode rule.1 = mode.entryToken) ++
        [(Name.root, p)] := by
  have htoken : ∀ rule ∈ front, Name.token mode rule.1 = Name.normalize mode rule.1 := by
    intro rule hrule
    have hname : rule.1 ≠ Name.root := fun h => hfront (h ▸ List.mem_map_of_mem hrule)
    rw [Name.token, if_neg hname]
  have hroot : Name.token mode Name.root = mode.entryToken := if_pos rfl
  rw [atEntry, List.filter_append]
  congr 1
  · exact List.filter_congr fun rule hrule => by rw [sides, htoken rule hrule]
  · simp [sides, hroot]

theorem atEntry_concat_root_eq_singleton_iff (hfront : Name.root ∉ front.map Prod.fst) :
    atEntry mode (front ++ [(Name.root, p)]) = [(Name.root, p)] ↔
      ∀ name ∈ front.map Prod.fst, Name.normalize mode name ≠ mode.entryToken := by
  rw [atEntry_concat_root hfront, List.append_left_eq_self, List.filter_eq_nil_iff]
  simp

theorem get?_concat_root (hfront : Name.root ∉ front.map Prod.fst) :
    (ofParts (front ++ [(Name.root, p)])).get? Name.root = some (.part p) := by
  have hnone : (ofParts front).get? Name.root = none := by
    rw [← Option.not_isSome_iff_eq_none, get?_isSome_iff, names_ofParts]
    exact hfront
  simp only [get?, ofParts] at hnone ⊢
  rw [List.map_append, List.lookup_append, hnone]
  rfl

end Registry

namespace Session

open Registry

/-- The text built after any calls ends with the rule of the last successful call of the root,
written under the entry token. The definitions before it are those of the defined names, and among
them the ones under the entry token are those whose names are written so in the notation. The root
rule is the only one under that token exactly if no such name was defined. -/
theorem entry_definitions_of_build (o : Options) (calls : List Request) (mode? : Option Mode)
    (text : String) (hbuild : ((fresh o).after calls).grammar.build mode? = .ok text) :
    let log := (fresh o).successes calls
    let mode := mode?.getD o.mode
    ∃ front p, ((fresh o).after calls).grammar.rules = .ofParts (front ++ [(Name.root, p)]) ∧
      text = "\n".intercalate ((front ++ [(Name.root, p)]).map (line mode)) ∧
      log.last? Name.root = some (.part p) ∧
      front.map Prod.fst = log.defined.eraseDups ∧
      atEntry mode (front ++ [(Name.root, p)]) =
        front.filter (fun rule => Name.normalize mode rule.1 = mode.entryToken) ++
          [(Name.root, p)] ∧
      (atEntry mode (front ++ [(Name.root, p)]) = [(Name.root, p)] ↔
        ∀ name ∈ log.defined, Name.normalize mode name ≠ mode.entryToken) := by
  intro log mode
  have hshows : ((fresh o).after calls).Shows o log := (shows_fresh o).after calls
  set g := ((fresh o).after calls).grammar with hg
  have hmode : g.buildIn mode = .ok text := by
    rw [← hbuild, Grammar.build, hshows.options]
  obtain ⟨rules, hrules⟩ := exists_ofParts_of_render (Grammar.render_of_buildIn hmode)
  have hfinal : log.HasRoot := hshows.isFinal_iff.mp (Grammar.isFinal_of_buildIn hmode)
  have hnames : rules.map Prod.fst = log.defined.eraseDups ++ [Name.root] := by
    rw [← names_ofParts, ← hrules, hshows.names, Log.names, if_pos hfinal]
  obtain ⟨front, last, rfl, hfront, hlast⟩ := List.map_eq_append_iff.mp hnames
  obtain ⟨⟨_, p⟩, rfl, rfl⟩ := List.map_eq_singleton_iff.mp hlast
  have hreserved : Name.root ∉ front.map Prod.fst := by
    rw [hfront, List.mem_eraseDups]
    exact hshows.reserved
  refine ⟨front, p, hrules, ?_, ?_, hfront, atEntry_concat_root hreserved, ?_⟩
  · exact ((Grammar.buildIn_eq_ok_iff hrules).mp hmode).2.2
  · rw [← hshows.get?, ← hg, hrules, get?_concat_root hreserved]
  · rw [atEntry_concat_root_eq_singleton_iff hreserved, hfront]
    simp only [List.mem_eraseDups]

def rootBeside (name : String) : List Request :=
  [⟨.define name, .const (.part (.literal "a"))⟩, ⟨.root, .const (.part (.literal "b"))⟩]

def rulesBeside (name : String) : List (String × Part) :=
  [(name, .literal "a"), (Name.root, .literal "b")]

theorem entry_definition_beside_Root_alone :
    ((fresh {}).after (rootBeside "Root")).grammar.build (some .ebnf) =
        .ok "root: \"a\"\nstart: \"b\"" ∧
      ∃ front p, ((fresh {}).after (rootBeside "Root")).grammar.rules =
          .ofParts (front ++ [(Name.root, p)]) ∧
        atEntry .ebnf (front ++ [(Name.root, p)]) = [(Name.root, p)] := by
  have hbuild : ((fresh {}).after (rootBeside "Root")).grammar.build (some .ebnf) =
      .ok "root: \"a\"\nstart: \"b\"" := by cbv
  obtain ⟨front, p, hrules, -, -, -, -, halone⟩ :=
    entry_definitions_of_build {} (rootBeside "Root") (some .ebnf) _ hbuild
  refine ⟨hbuild, front, p, hrules, halone.mpr ?_⟩
  have hdefined : ((fresh {}).successes (rootBeside "Root")).defined = ["Root"] := by cbv
  have hname : Name.normalize .ebnf "Root" = Name.root := by cbv
  rw [hdefined]
  exact List.forall_mem_singleton.mpr fun hentry => absurd (hname.symm.trans hentry) (by decide)

/-- Other spellings of the entry token can be defined beside the root rule, in either notation. -/
theorem two_definitions_of_entry_token :
    (((fresh {}).after (rootBeside "Root")).grammar.rules = .ofParts (rulesBeside "Root") ∧
      ((fresh {}).after (rootBeside "Root")).grammar.build (some .gbnf) =
        .ok "root ::= \"a\"\nroot ::= \"b\"" ∧
      (atEntry .gbnf (rulesBeside "Root")).length = 2) ∧
    ((fresh {}).after (rootBeside "start")).grammar.rules = .ofParts (rulesBeside "start") ∧
      ((fresh {}).after (rootBeside "start")).grammar.build (some .ebnf) =
        .ok "start: \"a\"\nstart: \"b\"" ∧
      (atEntry .ebnf (rulesBeside "start")).length = 2 := by
  exact ⟨⟨by cbv, by cbv, by cbv⟩, by cbv, by cbv, by cbv⟩

end Session
end GrammarRules
