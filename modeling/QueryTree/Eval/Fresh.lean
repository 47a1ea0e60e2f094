import QueryTree.Eval.Functions
import QueryTree.Expr.Basic

/-! Fresh identifiers. No call in an expression runs twice, since lambdas are applied only where
they stand; so the calls that yield fresh identifiers get their results in advance, each its own. -/

namespace QueryTree.FunctionTable

/-- An expression whose value is the next identifier of a supply, once its operands have values. -/
def take (supply : Nat → Uuid) (operands : List Expr) : StateM Nat Expr := do
  let n ← get
  set (n + 1)
  return .invoke (.lambda (operands.map fun _ => "_") (.constant (.uuid (supply n)))) operands

mutual

/-- Replaces the calls that yield fresh identifiers; the state counts them. -/
def drawing (t : FunctionTable) : Expr → StateM Nat Expr
  | .member e m => return .member (← t.drawing e) m
  | .call e m args => do
    let e ← t.drawing e
    let args ← t.drawingAll args
    match t.supply? m.signature with
    | some supply => take supply (e :: args)
    | none => return .call e m args
  | .staticCall m args => do
    let args ← t.drawingAll args
    match t.supply? m.signature with
    | some supply => take supply args
    | none => return .staticCall m args
  | .unary op e => return .unary op (← t.drawing e)
  | .binary op l r => return .binary op (← t.drawing l) (← t.drawing r)
  | .lambda ps b => return .lambda ps (← t.drawing b)
  | .conditional c a b => return .conditional (← t.drawing c) (← t.drawing a) (← t.drawing b)
  | .invoke c args => return .invoke (← t.drawing c) (← t.drawingAll args)
  | .constant v => return .constant v
  | .parameter name => return .parameter name
  | .var name => return .var name
  | .staticMember m => return .staticMember m
  | .context => return .context
  | .entityQuery name => return .entityQuery name
  | .sourceRef s => return .sourceRef s
  | .subQuery q => return .subQuery q

def drawingAll (t : FunctionTable) : List Expr → StateM Nat (List Expr)
  | [] => return []
  | e :: es => return (← t.drawing e) :: (← t.drawingAll es)

end

def draw (t : FunctionTable) (e : Expr) : Expr := ((t.drawing e).run 0).1

end QueryTree.FunctionTable
