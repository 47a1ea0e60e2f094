import QueryTree.Expr.Basic

/-! Which parts of a query may be computed before it runs. Calls and reads whose result changes from
run to run are excluded by a policy. -/

namespace QueryTree

/-- The calls, members and nodes that have to stay in the query. -/
structure Policy where
  methods : List Signature
  members : List Member
  predicates : List (Expr → Bool)

namespace Policy

def empty : Policy := ⟨[], [], []⟩

/-- Fresh identifiers, random numbers and clock reads stay. -/
def standard : Policy where
  methods :=
    [Method.newGuid.signature, (Method.randomNext 0).signature, (Method.randomNext 1).signature,
     (Method.randomNext 2).signature]
  members :=
    [Member.now, Member.utcNow, Member.today, Member.offsetNow, Member.offsetUtcNow]
  predicates := []

def excludeMethod (p : Policy) (s : Signature) : Policy :=
  { p with methods := if s ∈ p.methods then p.methods else p.methods ++ [s] }

def excludeMember (p : Policy) (m : Member) : Policy :=
  { p with members := if m ∈ p.members then p.members else p.members ++ [m] }

def excludeWhen (p : Policy) (predicate : Expr → Bool) : Policy :=
  { p with predicates := p.predicates ++ [predicate] }

/-- Calls and member reads are listed by definition, whatever they are applied to. -/
def lists (p : Policy) : Expr → Bool
  | .call _ m _ => decide (m.signature ∈ p.methods)
  | .staticCall m _ => decide (m.signature ∈ p.methods)
  | .member _ m => decide (m ∈ p.members)
  | .staticMember m => decide (m ∈ p.members)
  | _ => false

def excludes (p : Policy) (e : Expr) : Bool := p.lists e || p.predicates.any (· e)

/-- Whether a node may be computed early, its subexpressions apart. Lambdas never are: their bodies
depend on what the query binds. -/
def allows (p : Policy) (e : Expr) : Bool :=
  match e with
  | .var _ | .parameter _ | .sourceRef _ | .subQuery _ | .entityQuery _ | .lambda .. => false
  | .call _ m _ => !m.isQueryOperator && !p.excludes e
  | .staticCall m _ => !m.isQueryOperator && !p.excludes e
  | _ => !p.excludes e

def allowsAll (p : Policy) (e : Expr) : Bool := e.nodes.all p.allows

end Policy

end QueryTree
