/-! The kinds of query operators. -/

namespace QueryTree

inductive ElementPick where
  | first | single | last
  deriving DecidableEq, Repr

inductive Aggregate where
  | sum | min | max | average
  deriving DecidableEq, Repr

inductive Combination where
  | concat | union | intersect | except
  deriving DecidableEq, Repr

/-- What an operator call does to the sequence it is applied to. -/
inductive OperatorKind where
  | filter
  | select
  | selectMany
  | join (grouped : Bool)
  | orderBy (descending : Bool)
  | thenBy (descending : Bool)
  | groupBy
  | take
  | skip
  | contains
  | element (pick : ElementPick) (orDefault : Bool)
  | count (long : Bool)
  | any
  | all
  | aggregate (a : Aggregate)
  | distinct
  | reverse
  | combine (c : Combination)
  | cast
  | ofType
  | defaultIfEmpty
  | tracking (on : Bool)
  | tag
  | ignoreFilters
  | includeLambda
  | includeString
  | thenInclude
  /-- An operator of an extension, kept as it is. -/
  | custom (name : String)
  deriving DecidableEq, Repr

namespace ElementPick

def label (p : ElementPick) (orDefault : Bool) : String :=
  (match p with
    | first => "First"
    | single => "Single"
    | last => "Last") ++ (if orDefault then "OrDefault" else "")

end ElementPick

namespace Aggregate

def label : Aggregate → String
  | sum => "Sum"
  | min => "Min"
  | max => "Max"
  | average => "Average"

end Aggregate

namespace Combination

def label : Combination → String
  | concat => "Concat"
  | union => "Union"
  | intersect => "Intersect"
  | except => "Except"

end Combination

namespace OperatorKind

/-- The standard operators, and the numbers of arguments, the sequence included, that they are
defined for. -/
def standard : List (String × OperatorKind × List Nat) :=
  [("Where", filter, [2]), ("Select", select, [2]), ("SelectMany", selectMany, [2, 3]),
   ("Join", join false, [5]), ("GroupJoin", join true, [5]),
   ("OrderBy", orderBy false, [2]), ("OrderByDescending", orderBy true, [2]),
   ("ThenBy", thenBy false, [2]), ("ThenByDescending", thenBy true, [2]),
   ("GroupBy", groupBy, [2, 3]), ("Take", take, [2]), ("Skip", skip, [2]),
   ("First", element .first false, [1, 2]), ("FirstOrDefault", element .first true, [1, 2]),
   ("Single", element .single false, [1, 2]), ("SingleOrDefault", element .single true, [1, 2]),
   ("Last", element .last false, [1, 2]), ("LastOrDefault", element .last true, [1, 2]),
   ("Count", count false, [1, 2]), ("LongCount", count true, [1, 2]), ("Any", any, [1, 2]),
   ("All", all, [2]), ("Sum", aggregate .sum, [1, 2]), ("Min", aggregate .min, [1, 2]),
   ("Max", aggregate .max, [1, 2]), ("Average", aggregate .average, [1, 2]),
   ("Distinct", distinct, [1]), ("Reverse", reverse, [1]), ("Concat", combine .concat, [2]),
   ("Union", combine .union, [2]), ("Intersect", combine .intersect, [2]),
   ("Except", combine .except, [2]), ("Contains", contains, [2]), ("Cast", cast, [1]),
   ("OfType", ofType, [1]), ("DefaultIfEmpty", defaultIfEmpty, [1, 2])]

def directives : List (String × OperatorKind) :=
  [("AsTracking", tracking true), ("AsNoTracking", tracking false), ("TagWith", tag),
   ("IgnoreQueryFilters", ignoreFilters), ("Include", includeLambda),
   ("IncludeString", includeString), ("ThenInclude", thenInclude)]

def ofName? (name : String) : Option OperatorKind :=
  (standard.map (fun entry => (entry.1, entry.2.1)) ++ directives).lookup name

/-- The name of a kind; an include by a string path is told apart from its method. -/
def label : OperatorKind → String
  | includeString => "StringInclude"
  | custom name => name
  | kind =>
    ((standard.map (fun entry => (entry.2.1, entry.1)) ++
      directives.map fun entry => (entry.2, entry.1)).lookup kind).getD ""

def isDirective : OperatorKind → Bool
  | tracking _ | tag | ignoreFilters | includeLambda | includeString | thenInclude => true
  | _ => false

end OperatorKind

end QueryTree
