import QueryTree.Text.CaseTable

/-! Upper and lower case of whole texts, with expansions such as `ß` to `SS` and the final form of
sigma at the end of a word. -/

namespace QueryTree.Text

def upper (s : String) : String :=
  String.ofList (s.toList.flatMap CaseMap.upper.apply)

/-- The first character that is not case-ignorable exists and is cased. -/
def meetsCased (cs : List Char) : Bool :=
  match cs.dropWhile CharSet.caseIgnorable.contains with
  | [] => false
  | c :: _ => CharSet.cased.contains c

/-- A capital sigma ends a word if a cased character stands before it and none after it. -/
def lowerSigma (before after : List Char) : Char :=
  if meetsCased before && !meetsCased after then 'ς' else 'σ'

/-- `before` holds the characters already passed, the nearest first. -/
def lowerFrom (before : List Char) : List Char → List Char
  | [] => []
  | c :: after =>
    (if c = 'Σ' then [lowerSigma before after] else CaseMap.lower.apply c)
      ++ lowerFrom (c :: before) after

def lower (s : String) : String := String.ofList (lowerFrom [] s.toList)

end QueryTree.Text
