import QueryTree.Eval.Fresh

/-! Evaluation of expressions on the client. Lambda parameters are bound only while an inline lambda
is invoked; query sources, lambdas and query parameters have no value. -/

namespace QueryTree

/-- The values of the variables in scope, innermost first. -/
abbrev Env := List (String × Value)

/-- Binds parameters to arguments; of parameters with one name the last counts. -/
def Env.extend (params : List String) (values : List Value) (env : Env) : Env :=
  (params.zip values).reverse ++ env

structure Interpreter where
  functions : FunctionTable
  /-- The value of the session, if there is one. -/
  context : Option Value

namespace Interpreter

def ofFunctions (functions : FunctionTable) : Interpreter := ⟨functions, none⟩

def builtin (ambient : Ambient) : Interpreter := ofFunctions (.builtin ambient)

def withContext (ip : Interpreter) (context : Value) : Interpreter :=
  { ip with context := some context }

/-- A field of a record comes before the function table; the table is asked also for null. -/
def readMember (ip : Interpreter) (target : Option Value) (m : Member) : Except EvalError Value :=
  match target.bind (·.field? m.name) with
  | some v => .ok v
  | none =>
    match ip.functions.member? m with
    | some f => f target
    | none =>
      if target = some .null then .error (.nullReference m) else .error (.unknownMember m)

def callMethod (ip : Interpreter) (target : Option Value) (m : Method) (args : List Value) :
    Except EvalError Value :=
  match ip.functions.method? m.signature with
  | some f => f target args
  | none => .error (.unknownMethod m)

def applyUnary : UnaryOp → Value → Except EvalError Value
  | .not, v => v.logicalNot
  | .negate, v => v.negated
  | .convert _, v => .ok v
  | .quote, v => .ok v

/-- No comparison by order holds of null. -/
def compareOrder (op : BinaryOp) (a b : Value) : Except EvalError Value :=
  if a.isNull || b.isNull then .ok (.bool false)
  else
    match a.compare? b with
    | some order => .ok (.bool (Value.orderHolds op order))
    | none => .error (.incomparable a.kind b.kind)

def applyBinary (op : BinaryOp) (a b : Value) : Except EvalError Value :=
  match op with
  | .eq => .ok (.bool (a.equals b))
  | .ne => .ok (.bool !a.equals b)
  | .gt | .ge | .lt | .le => compareOrder op a b
  | _ => Value.arithmetic op a b

def expectLogical : Value → Except EvalError Value
  | .bool b => .ok (.bool b)
  | v => .error (.logicalOperand v.kind)

mutual

def eval (ip : Interpreter) : Expr → Env → Except EvalError Value
  | .constant v, _ => .ok v
  | .parameter name, _ => .error (.parameterWithoutValue name)
  | .var name, env =>
    match env.lookup name with
    | some v => .ok v
    | none => .error (.unboundVariable name)
  | .member t m, env => do
    let target ← ip.eval t env
    ip.readMember (some target) m
  | .staticMember m, _ => ip.readMember none m
  | .call t m args, env => do
    let target ← ip.eval t env
    let values ← ip.evalAll args env
    ip.callMethod (some target) m values
  | .staticCall m args, env => do
    let values ← ip.evalAll args env
    ip.callMethod none m values
  | .unary op e, env => do
    let v ← ip.eval e env
    applyUnary op v
  | .binary .and l r, env => do
    match ← ip.eval l env with
    | .bool false => .ok (.bool false)
    | .bool true => (ip.eval r env).bind expectLogical
    | v => .error (.logicalOperand v.kind)
  | .binary .or l r, env => do
    match ← ip.eval l env with
    | .bool true => .ok (.bool true)
    | .bool false => (ip.eval r env).bind expectLogical
    | v => .error (.logicalOperand v.kind)
  | .binary .coalesce l r, env => do
    match ← ip.eval l env with
    | .null => ip.eval r env
    | v => .ok v
  | .binary op l r, env => do
    let a ← ip.eval l env
    let b ← ip.eval r env
    applyBinary op a b
  | .lambda .., _ => .error .lambdaValue
  | .conditional t a b, env => do
    match ← ip.eval t env with
    | .bool true => ip.eval a env
    | .bool false => ip.eval b env
    | v => .error (.conditionalTest v.kind)
  | .invoke c args, env => ip.applyCallee args.length (ip.evalAll args env) c env
  | .context, _ =>
    match ip.context with
    | some v => .ok v
    | none => .error .noContext
  | .entityQuery _, _ => .error .querySource
  | .sourceRef _, _ => .error .querySource
  | .subQuery _, _ => .error .querySource

def evalAll (ip : Interpreter) : List Expr → Env → Except EvalError (List Value)
  | [], _ => .ok []
  | e :: es, env => do
    let v ← ip.eval e env
    let vs ← ip.evalAll es env
    .ok (v :: vs)

/-- Applies a callee that is a lambda of `count` parameters, under conversions and quotes, to its
arguments. -/
def applyCallee (ip : Interpreter) (count : Nat) (args : Except EvalError (List Value)) :
    Expr → Env → Except EvalError Value
  | .unary (.convert _) e, env => ip.applyCallee count args e env
  | .unary .quote e, env => ip.applyCallee count args e env
  | .lambda ps body, env =>
    if ps.length = count then do
      let values ← args
      ip.eval body (Env.extend ps values env)
    else .error .notInlineLambda
  | _, _ => .error .notInlineLambda

end

/-- The value of an expression without free variables, in which every call for a fresh identifier
has a result of its own. -/
def evaluate (ip : Interpreter) (e : Expr) : Except EvalError Value :=
  ip.eval (ip.functions.draw e) []

end Interpreter

end QueryTree
