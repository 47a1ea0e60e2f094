import QueryTree.Expr.Basic
import QueryTree.Operator.Kind

/-! Query models: the structured form of an operator chain. A model has a main source, clauses, a
select expression, and operators on the selected sequence. -/

namespace QueryTree

inductive SourceKind where
  | mainFrom | additionalFrom | join | groupJoin
  /-- The groups of a grouping. -/
  | groupResult
  deriving DecidableEq, Repr

namespace SourceKind

def label : SourceKind → String
  | mainFrom => "MainFrom"
  | additionalFrom => "AdditionalFrom"
  | join => "Join"
  | groupJoin => "GroupJoin"
  | groupResult => "GroupResult"

def all : List SourceKind := [mainFrom, additionalFrom, join, groupJoin, groupResult]

def ofLabel? (label : String) : Option SourceKind := all.find? (·.label == label)

end SourceKind

/-- A sequence with a name for its items. -/
structure QuerySource where
  name : String
  kind : SourceKind
  /-- The sequence itself; for groups, the selected element. -/
  origin : Expr
  /-- The entity type, where the items are entities. -/
  itemType : Option String
  deriving DecidableEq

/-- A source that another one is a plain reference to. -/
def QuerySource.referenced? (s : QuerySource) : Option SourceId :=
  match s.origin.strip with
  | .sourceRef id => some id
  | _ => none

structure SortKey where
  key : Expr
  descending : Bool
  deriving DecidableEq

inductive Clause where
  | filter (predicate : Expr)
  | orderBy (keys : List SortKey)
  | additionalFrom (source : SourceId)
  | join (grouped : Bool) (source : SourceId) (outerKey innerKey : Expr)
  deriving DecidableEq

namespace Clause

def expressions : Clause → List Expr
  | filter p => [p]
  | orderBy keys => keys.map (·.key)
  | additionalFrom _ => []
  | join _ _ outer inner => [outer, inner]

def source? : Clause → Option SourceId
  | additionalFrom s => some s
  | join _ s _ _ => some s
  | _ => none

end Clause

inductive ResultOperator where
  | take (count : Expr)
  | skip (count : Expr)
  | contains (item : Expr)
  | element (pick : ElementPick) (orDefault : Bool)
  | count (long : Bool)
  | any
  | all (predicate : Expr)
  | aggregate (a : Aggregate)
  | distinct
  | reverse
  | combine (c : Combination) (other : Expr)
  /-- `source` stands for the groups. -/
  | groupBy (key element : Expr) (source : SourceId)
  | cast (type : String)
  | ofType (type : String)
  | defaultIfEmpty (default : Option Expr)
  | tracking (on : Bool)
  | tag (text : String)
  | ignoreFilters
  /-- Related entities to load with a source; without one, with the main source. -/
  | includes (source : Option SourceId) (path : List String)
  | custom (name : String) (args : List Expr)
  deriving DecidableEq

namespace ResultOperator

def name : ResultOperator → String
  | take _ => "Take"
  | skip _ => "Skip"
  | contains _ => "Contains"
  | element pick orDefault => pick.label orDefault
  | count long => if long then "LongCount" else "Count"
  | any => "Any"
  | all _ => "All"
  | aggregate a => a.label
  | distinct => "Distinct"
  | reverse => "Reverse"
  | combine c _ => c.label
  | groupBy .. => "GroupBy"
  | cast _ => "Cast"
  | ofType _ => "OfType"
  | defaultIfEmpty _ => "DefaultIfEmpty"
  | tracking on => if on then "AsTracking" else "AsNoTracking"
  | tag _ => "TagWith"
  | ignoreFilters => "IgnoreQueryFilters"
  | includes .. => "Include"
  | custom name _ => name

def expressions : ResultOperator → List Expr
  | take e => [e]
  | skip e => [e]
  | contains e => [e]
  | all e => [e]
  | combine _ e => [e]
  | groupBy key item _ => [key, item]
  | defaultIfEmpty (some e) => [e]
  | custom _ args => args
  | _ => []

def isDirective : ResultOperator → Bool
  | tracking _ | tag _ | ignoreFilters | includes .. => true
  | _ => false

/-- Operators that reduce the sequence to a value that is no entity. -/
def isScalar : ResultOperator → Bool
  | count _ | any | all _ | aggregate _ | contains _ => true
  | _ => false

def isGrouping : ResultOperator → Bool
  | groupBy .. => true
  | _ => false

def source? : ResultOperator → Option SourceId
  | groupBy _ _ s => some s
  | _ => none

/-- The operator of a kind that needs nothing but expressions. -/
def ofKind? : OperatorKind → List Expr → Option ResultOperator
  | .take, [e] => some (take e)
  | .skip, [e] => some (skip e)
  | .contains, [e] => some (contains e)
  | .all, [e] => some (all e)
  | .combine c, [e] => some (combine c e)
  | .element pick orDefault, [] => some (element pick orDefault)
  | .count long, [] => some (count long)
  | .any, [] => some any
  | .aggregate a, [] => some (aggregate a)
  | .distinct, [] => some distinct
  | .reverse, [] => some reverse
  | .defaultIfEmpty, [] => some (defaultIfEmpty none)
  | .defaultIfEmpty, [e] => some (defaultIfEmpty (some e))
  | .tracking on, [] => some (tracking on)
  | .ignoreFilters, [] => some ignoreFilters
  | _, _ => none

end ResultOperator

structure QueryModel where
  mainFrom : SourceId
  clauses : List Clause
  select : Expr
  operators : List ResultOperator
  deriving DecidableEq

namespace QueryModel

/-- The items of a source, unchanged. -/
def ofSource (s : SourceId) : QueryModel := ⟨s, [], .sourceRef s, []⟩

def expressions (m : QueryModel) : List Expr :=
  m.clauses.flatMap (·.expressions) ++ m.select :: m.operators.flatMap (·.expressions)

/-- The last operator that shapes the sequence. -/
def lastOperator? (m : QueryModel) : Option ResultOperator :=
  m.operators.reverse.find? (!·.isDirective)

/-- The source of the groups, if the sequence consists of groups. -/
def groupSource? (m : QueryModel) : Option SourceId := m.lastOperator?.bind (·.source?)

def isScalar (m : QueryModel) : Bool := m.operators.any (·.isScalar)

/-- The sources that a model declares: the main source, those of clauses, those of groupings. -/
def declaredSources (m : QueryModel) : List SourceId :=
  m.mainFrom :: (m.clauses.filterMap (·.source?) ++ m.operators.filterMap (·.source?))

def addClause (m : QueryModel) (c : Clause) : QueryModel := { m with clauses := m.clauses ++ [c] }

def addOperator (m : QueryModel) (op : ResultOperator) : QueryModel :=
  { m with operators := m.operators ++ [op] }

end QueryModel

end QueryTree
