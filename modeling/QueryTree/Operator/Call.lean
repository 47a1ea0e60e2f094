import QueryTree.Expr.Basic
import QueryTree.Operator.Registry

/-! Operator calls in expressions. A chain is a sequence with the operators applied to it. -/

namespace QueryTree

/-- An operator, apart from the sequence it is applied to. -/
structure OperatorCall where
  method : Method
  kind : OperatorKind
  args : List Expr

/-- Whether an expression yields the items of a query: a query root, a subquery, or a call whose
first argument does. -/
def Expr.isSequence : Expr → Bool
  | unary (.convert _) e => e.isSequence
  | unary .quote e => e.isSequence
  | entityQuery _ => true
  | subQuery _ => true
  | staticCall _ (s :: _) => s.isSequence
  | _ => false

namespace Registry

/-- The kind of an operator call: a call without receiver, with a sequence as first argument. -/
def kind? (r : Registry) : Expr → Option OperatorKind
  | .staticCall m (_ :: _) => r.lookup m
  | _ => none

/-- The root of a chain and the operators on it, innermost first. -/
def chain (r : Registry) : Expr → Expr × List OperatorCall
  | .unary (.convert _) e => r.chain e
  | .unary .quote e => r.chain e
  | .staticCall m (s :: args) =>
    match r.lookup m with
    | some kind => ((r.chain s).1, (r.chain s).2 ++ [⟨m, kind, args⟩])
    | none => (.staticCall m (s :: args), [])
  | e => (e, [])

end Registry

end QueryTree
