import GrammarRules.Data
import GrammarRules.Issue
import GrammarRules.Part

/-!
# Rules described by data

A rule may be given as a record: its `kind`, its `cardinality` as a glyph or nothing, and `parts`,
`options`, `name` or `pattern` as the kind asks. Other fields are ignored, and a missing list is
empty. `Part.toData` writes the full description of a part, `Part.ofData` reads any of them.
-/

namespace GrammarRules.Part

def cardinalityData (cardinality : Option Cardinality) : Data :=
  Data.optText (cardinality.map Cardinality.text)

mutual

/-- The description of a part with all its fields. -/
def toData : Part → Data
  | .literal text => .text text
  | .sequence parts c => .record [("kind", .text "sequence"), ("cardinality", cardinalityData c),
      ("parts", .list (toDataAll parts))]
  | .oneOf options c => .record [("kind", .text "one_of"), ("cardinality", cardinalityData c),
      ("options", .list (toDataAll options))]
  | .ref name c => .record [("kind", .text "ref"), ("cardinality", cardinalityData c),
      ("name", .text name)]
  | .range pattern c => .record [("kind", .text "range"), ("cardinality", cardinalityData c),
      ("pattern", .text pattern)]

def toDataAll : List Part → List Data
  | [] => []
  | p :: ps => p.toData :: toDataAll ps

end

def cardinalityOf (fields : Data.Fields) : Checked (Option Cardinality) :=
  match fields.lookup "cardinality" with
  | none | some .null => .ok none
  | some (.text glyph) =>
      match Cardinality.ofText? glyph with
      | some c => .ok (some c)
      | none => (Checked.fail .notChoice).under "cardinality"
  | some _ => (Checked.fail .notChoice).under "cardinality"

def textOf (field : String) (fields : Data.Fields) : Checked String :=
  match fields.lookup field with
  | none => (Checked.fail .missing).under field
  | some (.text s) => .ok s
  | some _ => (Checked.fail .notText).under field

/-- A part is a literal or a rule: where `d` is no text, what is wrong with it as a literal comes
before what is wrong with it as a rule. -/
def literalOr (d : Data) (asRule : Checked Part) : Checked Part :=
  match d, asRule with
  | .text s, _ => .ok (.literal s)
  | _, .ok part => .ok part
  | _, .error issues =>
      .error (⟨["str"], .notText⟩ :: issues.map (Issue.under "tagged-union"))

mutual

/-- The rule that `d` describes. -/
def ruleOfData : Data → Checked Part
  | .record fields =>
      match fields.lookup "kind" with
      | some (.text "sequence") =>
          (Checked.map₂ (fun c parts => .sequence parts c) (cardinalityOf fields)
            (itemsOf "parts" fields)).under "sequence"
      | some (.text "one_of") =>
          (Checked.map₂ (fun c options => .oneOf options c) (cardinalityOf fields)
            (itemsOf "options" fields)).under "one_of"
      | some (.text "ref") =>
          (Checked.map₂ (fun c name => .ref name c) (cardinalityOf fields)
            (textOf "name" fields)).under "ref"
      | some (.text "range") =>
          (Checked.map₂ (fun c pattern => .range pattern c) (cardinalityOf fields)
            (textOf "pattern" fields)).under "range"
      | none => Checked.fail .kindMissing
      | some _ => Checked.fail .kindUnknown
  | _ => Checked.fail .notRule

/-- The parts listed in a field, none if there is no such field. -/
def itemsOf (field : String) : Data.Fields → Checked (List Part)
  | [] => .ok []
  | (name, d) :: fields =>
      if name = field then (listOfData d).under field else itemsOf field fields

def listOfData : Data → Checked (List Part)
  | .list items => partsFrom 0 items
  | _ => Checked.fail .notList

/-- `place` is the place of the first of the items in their list. -/
def partsFrom (place : Nat) : List Data → Checked (List Part)
  | [] => .ok []
  | d :: ds =>
      Checked.map₂ List.cons ((literalOr d (ruleOfData d)).under (toString place))
        (partsFrom (place + 1) ds)

end

/-- The part that `d` describes. -/
def ofData (d : Data) : Checked Part := literalOr d (ruleOfData d)

end GrammarRules.Part
