import QueryTree.Directive.Context

/-! Cache keys. -/

namespace QueryTree

/-- The key of a compiled query: its shape, after its parameters were taken out. -/
structure QueryKey where
  shape : Expr
  tracking : TrackingBehavior
  isAsync : Bool
  deriving DecidableEq

/-- The key of the filters on an entity type. Entity types are told apart by identity, and filters
form a set; they are listed once each. -/
structure FilterKey where
  entity : Nat
  filters : List String

namespace FilterKey

def insertNew (filters : List String) (f : String) : List String :=
  if f ∈ filters then filters else filters ++ [f]

def ofFilters (entity : Nat) (filters : List String) : FilterKey :=
  ⟨entity, filters.foldl insertNew []⟩

/-- The same entity type, as many filters, and every filter of the one among those of the other. -/
def equals (a b : FilterKey) : Bool :=
  decide (a.entity = b.entity) && decide (a.filters.length = b.filters.length) &&
    a.filters.all (b.filters.contains ·)

/-- What a key is hashed by. The sum wraps around and does not depend on the order of the
filters. -/
def digest (hash : String → UInt64) (k : FilterKey) : Nat × UInt64 :=
  (k.entity, k.filters.foldl (fun sum f => sum + hash f) 0)

end FilterKey

end QueryTree
