import QueryTree.Eval.Interpreter
import QueryTree.Evaluability

/-! Constant folding: maximal subexpressions that are built from constants are replaced by their
values. What has no value stays as it is. -/

namespace QueryTree

structure Folder where
  policy : Policy
  interpreter : Interpreter

namespace Folder

def standard (ambient : Ambient) : Folder := ⟨.standard, .builtin ambient⟩

/-- Nodes whose value comes from outside the expression. -/
def readsOutside : Expr → Bool
  | .context | .staticMember _ => true
  | _ => false

def isFoldable (f : Folder) (e : Expr) : Bool :=
  !e.isConstant && f.policy.allowsAll e && !e.nodes.any readsOutside

def value? (f : Folder) (e : Expr) : Option Value :=
  if f.isFoldable e then (f.interpreter.evaluate e).toOption else none

mutual

def fold (f : Folder) (e : Expr) : Expr :=
  match f.value? e with
  | some v => .constant v
  | none =>
    match e with
    | .member t m => .member (f.fold t) m
    | .call t m args => .call (f.fold t) m (f.foldAll args)
    | .staticCall m args => .staticCall m (f.foldAll args)
    | .unary op e => .unary op (f.fold e)
    | .binary op l r => .binary op (f.fold l) (f.fold r)
    | .lambda ps b => .lambda ps (f.fold b)
    | .conditional t a b => .conditional (f.fold t) (f.fold a) (f.fold b)
    | .invoke c args => .invoke (f.fold c) (f.foldAll args)
    | e => e

def foldAll (f : Folder) : List Expr → List Expr
  | [] => []
  | e :: es => f.fold e :: f.foldAll es

end

end Folder

end QueryTree
