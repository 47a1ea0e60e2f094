import QueryTree.Expr.Basic

/-! Operator chains, as a fluent query surface builds them: calls whose first argument is the
sequence and whose lambdas are quoted. -/

namespace QueryTree.Expr

/-- A standard operator on a sequence; its arity counts the sequence. -/
def operator (name : String) (source : Expr) (args : List Expr) : Expr :=
  staticCall (Method.queryable name (args.length + 1)) (source :: args)

def extension (method : Method) (source : Expr) (args : List Expr) : Expr :=
  staticCall method (source :: args)

def filtered (source predicate : Expr) : Expr := operator "Where" source [quote predicate]

def select (source selector : Expr) : Expr := operator "Select" source [quote selector]

def selectMany (source collection result : Expr) : Expr :=
  operator "SelectMany" source [quote collection, quote result]

def join (outer inner outerKey innerKey result : Expr) : Expr :=
  operator "Join" outer [inner, quote outerKey, quote innerKey, quote result]

def groupJoin (outer inner outerKey innerKey result : Expr) : Expr :=
  operator "GroupJoin" outer [inner, quote outerKey, quote innerKey, quote result]

def orderBy (source key : Expr) : Expr := operator "OrderBy" source [quote key]

def orderByDescending (source key : Expr) : Expr := operator "OrderByDescending" source [quote key]

def thenBy (source key : Expr) : Expr := operator "ThenBy" source [quote key]

def groupBy (source key : Expr) : Expr := operator "GroupBy" source [quote key]

def groupByElement (source key element : Expr) : Expr :=
  operator "GroupBy" source [quote key, quote element]

def take (source count : Expr) : Expr := operator "Take" source [count]

def skip (source count : Expr) : Expr := operator "Skip" source [count]

def first (source : Expr) : Expr := operator "First" source []

def firstOrDefault (source : Expr) : Expr := operator "FirstOrDefault" source []

def count (source : Expr) : Expr := operator "Count" source []

def any (source : Expr) : Expr := operator "Any" source []

def anyWhere (source predicate : Expr) : Expr := operator "Any" source [quote predicate]

def distinct (source : Expr) : Expr := operator "Distinct" source []

def concat (source other : Expr) : Expr := operator "Concat" source [other]

def asTracking (source : Expr) : Expr := extension .asTracking source []

def asNoTracking (source : Expr) : Expr := extension .asNoTracking source []

def tagWith (source tag : Expr) : Expr := extension .tagWith source [tag]

def ignoreQueryFilters (source : Expr) : Expr := extension .ignoreQueryFilters source []

def includeNavigation (source navigation : Expr) : Expr :=
  extension .includeNavigation source [quote navigation]

def includeAsync (source navigation : Expr) : Expr :=
  extension .includeAsync source [quote navigation]

def includePath (source : Expr) (path : String) : Expr :=
  extension .includeString source [constant (.string path)]

def thenInclude (source navigation : Expr) : Expr :=
  extension .thenInclude source [quote navigation]

end QueryTree.Expr
