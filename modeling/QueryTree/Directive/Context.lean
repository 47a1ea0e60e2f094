import QueryTree.Expr.Basic

/-! Directives of a query, taken out of its models. -/

namespace QueryTree

/-- Whether entities are tracked when a query says nothing about it. -/
inductive TrackingBehavior where
  | trackAll | noTracking
  deriving DecidableEq, Repr

namespace TrackingBehavior

def isTracking (b : TrackingBehavior) : Bool := b == trackAll

def label : TrackingBehavior → String
  | trackAll => "track_all"
  | noTracking => "no_tracking"

def ofLabel? (s : String) : Option TrackingBehavior :=
  if s = "track_all" then some trackAll
  else if s = "no_tracking" then some noTracking
  else none

end TrackingBehavior

inductive Directive where
  | tracking (on : Bool)
  | tag (text : String)
  | ignoreFilters
  | includes (path : List String)
  deriving DecidableEq, Repr

def Directive.path? : Directive → Option (List String)
  | includes path => some path
  | _ => none

/-- A directive, with the source it applies to and the model it stood in. -/
structure AppliedDirective where
  directive : Directive
  source : SourceId
  model : ModelId
  deriving DecidableEq, Repr

structure CompilationContext where
  defaultTracking : TrackingBehavior
  tracking : Option Bool
  tags : List String
  ignoreFilters : Bool
  directives : List AppliedDirective
  deriving DecidableEq, Repr

namespace CompilationContext

def ofDefault (b : TrackingBehavior) : CompilationContext := ⟨b, none, [], false, []⟩

/-- The last tracking directive wins, and a tag counts once. -/
def add (c : CompilationContext) (a : AppliedDirective) : CompilationContext :=
  let c := { c with directives := c.directives ++ [a] }
  match a.directive with
  | .tracking on => { c with tracking := some on }
  | .tag text => if text ∈ c.tags then c else { c with tags := c.tags ++ [text] }
  | .ignoreFilters => { c with ignoreFilters := true }
  | .includes _ => c

def isTracking (c : CompilationContext) : Bool := c.tracking.getD c.defaultTracking.isTracking

def includes (c : CompilationContext) : List (AppliedDirective × List String) :=
  c.directives.filterMap fun a => a.directive.path?.map (a, ·)

end CompilationContext

end QueryTree
