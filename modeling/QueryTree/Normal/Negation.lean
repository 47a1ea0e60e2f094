import QueryTree.Error

/-! Negations pushed inward: through `&&` and `||`, into comparisons, and away in pairs. -/

namespace QueryTree.Normal

def invert (op : BinaryOp) : Except Error BinaryOp :=
  match op.invert? with
  | some inverse => .ok inverse
  | none => .error (.internal (.notInvertible op))

def negatedIf (negated : Bool) (e : Expr) : Expr := if negated then .not e else e

mutual

/-- The expression, or its negation, with negations pushed inward. -/
def negations : Expr → Bool → Except Error Expr
  | .unary .not e, negated => negations e !negated
  | .constant (.bool b), true => .ok (.constant (.bool !b))
  | .binary op l r, negated =>
    if negated && op.isLogical then do
      let inverse ← invert op
      let l ← negations l true
      let r ← negations r true
      .ok (.binary inverse l r)
    else if negated && op.isComparison then do
      let inverse ← invert op
      let l ← negations l false
      let r ← negations r false
      .ok (.binary inverse l r)
    else do
      let l ← negations l false
      let r ← negations r false
      .ok (negatedIf negated (.binary op l r))
  | .member t m, negated => do
    let t ← negations t false
    .ok (negatedIf negated (.member t m))
  | .call t m args, negated => do
    let t ← negations t false
    let args ← negationsAll args
    .ok (negatedIf negated (.call t m args))
  | .staticCall m args, negated => do
    let args ← negationsAll args
    .ok (negatedIf negated (.staticCall m args))
  | .unary op e, negated => do
    let e ← negations e false
    .ok (negatedIf negated (.unary op e))
  | .lambda ps b, negated => do
    let b ← negations b false
    .ok (negatedIf negated (.lambda ps b))
  | .conditional t a b, negated => do
    let t ← negations t false
    let a ← negations a false
    let b ← negations b false
    .ok (negatedIf negated (.conditional t a b))
  | .invoke c args, negated => do
    let c ← negations c false
    let args ← negationsAll args
    .ok (negatedIf negated (.invoke c args))
  | e, negated => .ok (negatedIf negated e)

def negationsAll : List Expr → Except Error (List Expr)
  | [] => .ok []
  | e :: es => do
    let e ← negations e false
    let es ← negationsAll es
    .ok (e :: es)

end

end QueryTree.Normal
