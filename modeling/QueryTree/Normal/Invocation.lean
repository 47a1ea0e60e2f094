import QueryTree.Error
import QueryTree.Expr.Scope

/-! Invocations of inline lambdas are unfolded: the arguments take the place of the parameters. The
result is unfolded again, so a tree in which a lambda is applied to itself may never be finished;
the number of nested unfoldings is therefore limited. -/

namespace QueryTree.Normal

/-- The body of a lambda of matching arity, under conversions and quotes, with the arguments in the
place of the parameters. -/
def unfolded? (callee : Expr) (args : List Expr) : Option Expr :=
  match callee.strip with
  | .lambda ps body =>
    if ps.length = args.length then some (body.substitute (Bindings.ofPairs (ps.zip args)))
    else none
  | _ => none

mutual

/-- Unfolds the outermost invocations and hands what they become to `again`. -/
def unfoldWith (again : Expr → Except Error Expr) : Expr → Except Error Expr
  | .member t m => do
    let t ← unfoldWith again t
    .ok (.member t m)
  | .call t m args => do
    let t ← unfoldWith again t
    let args ← unfoldAllWith again args
    .ok (.call t m args)
  | .staticCall m args => do
    let args ← unfoldAllWith again args
    .ok (.staticCall m args)
  | .unary op e => do
    let e ← unfoldWith again e
    .ok (.unary op e)
  | .binary op l r => do
    let l ← unfoldWith again l
    let r ← unfoldWith again r
    .ok (.binary op l r)
  | .lambda ps b => do
    let b ← unfoldWith again b
    .ok (.lambda ps b)
  | .conditional t a b => do
    let t ← unfoldWith again t
    let a ← unfoldWith again a
    let b ← unfoldWith again b
    .ok (.conditional t a b)
  | .invoke c args =>
    match unfolded? c args with
    | some body => again body
    | none => do
      let c ← unfoldWith again c
      let args ← unfoldAllWith again args
      .ok (.invoke c args)
  | e => .ok e

def unfoldAllWith (again : Expr → Except Error Expr) : List Expr → Except Error (List Expr)
  | [] => .ok []
  | e :: es => do
    let e ← unfoldWith again e
    let es ← unfoldAllWith again es
    .ok (e :: es)

end

/-- Unfolds invocations that nest at most `limit` deep. -/
def invocations : Nat → Expr → Except Error Expr
  | 0 => unfoldWith fun _ => .error .limitExceeded
  | limit + 1 => unfoldWith (invocations limit)

end QueryTree.Normal
