/-!
# Words of a name

A name is read from left to right. Wherever a run of ASCII letters or digits starts, its first word
is taken: a number, a small word with at most one leading capital, or an acronym. An acronym in
front of a small word leaves its last capital to that word, so `XMLHttp` is `XML` and `Http`. All
other characters only separate.
-/

namespace GrammarRules.Words

/-- The word that `cs` starts with, empty if `cs` does not start with an ASCII letter or digit. -/
def first (cs : List Char) : List Char :=
  let capitals := cs.takeWhile Char.isUpper
  let small := (cs.dropWhile Char.isUpper).takeWhile Char.isLower
  match capitals, small with
  | [], [] => cs.takeWhile Char.isDigit
  | _, [] => capitals
  | [], _ => small
  | [c], _ => c :: small
  | _, _ => capitals.dropLast

/-- The words of `cs`, from left to right. -/
def split : List Char → List (List Char)
  | [] => []
  | c :: cs =>
      match first (c :: cs) with
      | [] => split cs
      | _ :: w => (c :: w) :: split (cs.drop w.length)
termination_by cs => cs.length
decreasing_by all_goals simp only [List.length_cons, List.length_drop]; omega

/-- Words in lower case with a separator between neighbours. -/
def join (separator : Char) (words : List (List Char)) : List Char :=
  [separator].intercalate (words.map (·.map Char.toLower))

end GrammarRules.Words
