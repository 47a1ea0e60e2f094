import QueryTree.Eval.Interpreter
import QueryTree.Proofs.Reference

/-! Strict evaluation, which refuses to order null. It is the yardstick for laws that fail of null
only: a comparison by order and its inverse both fail of null, so that one is not the negation of
the other. An evaluator that is not strict evaluates as its interpreter does. -/

namespace QueryTree

structure Evaluator extends Interpreter where
  /-- Whether the evaluator refuses to order null. -/
  strict : Bool

namespace Evaluator

open Interpreter (applyUnary expectLogical)

def compareOrder (ip : Evaluator) (op : BinaryOp) (a b : Value) : Except EvalError Value :=
  if ip.strict && (a.isNull || b.isNull) then .error (.incomparable a.kind b.kind)
  else Interpreter.compareOrder op a b

def applyBinary (ip : Evaluator) (op : BinaryOp) (a b : Value) : Except EvalError Value :=
  match op with
  | .gt | .ge | .lt | .le => ip.compareOrder op a b
  | _ => Interpreter.applyBinary op a b

mutual

def eval (ip : Evaluator) : Expr → Env → Except EvalError Value
  | .constant v, _ => .ok v
  | .parameter name, _ => .error (.parameterWithoutValue name)
  | .var name, env =>
    match env.lookup name with
    | some v => .ok v
    | none => .error (.unboundVariable name)
  | .member t m, env => do
    let target ← ip.eval t env
    ip.readMember (some target) m
  | .staticMember m, _ => ip.readMember none m
  | .call t m args, env => do
    let target ← ip.eval t env
    let values ← ip.evalAll args env
    ip.callMethod (some target) m values
  | .staticCall m args, env => do
    let values ← ip.evalAll args env
    ip.callMethod none m values
  | .unary op e, env => do
    let v ← ip.eval e env
    applyUnary op v
  | .binary .and l r, env => do
    match ← ip.eval l env with
    | .bool false => .ok (.bool false)
    | .bool true => (ip.eval r env).bind expectLogical
    | v => .error (.logicalOperand v.kind)
  | .binary .or l r, env => do
    match ← ip.eval l env with
    | .bool true => .ok (.bool true)
    | .bool false => (ip.eval r env).bind expectLogical
    | v => .error (.logicalOperand v.kind)
  | .binary .coalesce l r, env => do
    match ← ip.eval l env with
    | .null => ip.eval r env
    | v => .ok v
  | .binary op l r, env => do
    let a ← ip.eval l env
    let b ← ip.eval r env
    ip.applyBinary op a b
  | .lambda .., _ => .error .lambdaValue
  | .conditional t a b, env => do
    match ← ip.eval t env with
    | .bool true => ip.eval a env
    | .bool false => ip.eval b env
    | v => .error (.conditionalTest v.kind)
  | .invoke c args, env => ip.applyCallee args.length (ip.evalAll args env) c env
  | .context, _ =>
    match ip.context with
    | some v => .ok v
    | none => .error .noContext
  | .entityQuery _, _ => .error .querySource
  | .sourceRef _, _ => .error .querySource
  | .subQuery _, _ => .error .querySource

def evalAll (ip : Evaluator) : List Expr → Env → Except EvalError (List Value)
  | [], _ => .ok []
  | e :: es, env => do
    let v ← ip.eval e env
    let vs ← ip.evalAll es env
    .ok (v :: vs)

def applyCallee (ip : Evaluator) (count : Nat) (args : Except EvalError (List Value)) :
    Expr → Env → Except EvalError Value
  | .unary (.convert _) e, env => ip.applyCallee count args e env
  | .unary .quote e, env => ip.applyCallee count args e env
  | .lambda ps body, env =>
    if ps.length = count then do
      let values ← args
      ip.eval body (Env.extend ps values env)
    else .error .notInlineLambda
  | _, _ => .error .notInlineLambda

end

/-- The evaluator that refuses to order null. -/
def strictly (ip : Evaluator) : Evaluator := { ip with strict := true }

end Evaluator

namespace Interpreter

/-- The evaluator that is not strict. -/
def plain (ip : Interpreter) : Evaluator := ⟨ip, false⟩

/-- The evaluator that refuses to order null. -/
def strictly (ip : Interpreter) : Evaluator := ⟨ip, true⟩

variable {ip : Interpreter} {e : Expr} {es : List Expr}

theorem toInterpreter_plain (ip : Interpreter) : ip.plain.toInterpreter = ip := rfl

theorem applyBinary_plain (op : BinaryOp) (a b : Value) :
    ip.plain.applyBinary op a b = applyBinary op a b := by
  cases op <;> rfl

theorem evalAll_plain_of_forall (h : ∀ e ∈ es, ∀ env, ip.plain.eval e env = ip.eval e env)
    (env : Env) : ip.plain.evalAll es env = ip.evalAll es env := by
  induction es with
  | nil => rfl
  | cons e es ih =>
    rw [List.forall_mem_cons] at h
    simp only [Evaluator.evalAll, evalAll, h.1, ih h.2]

theorem eval_plain_of_children (h : ∀ c ∈ e.children, ∀ env, ip.plain.eval c env = ip.eval c env)
    (hcallee : ∀ c args, e = .invoke c args → ∀ count args env,
      ip.plain.applyCallee count args c env = ip.applyCallee count args c env) (env : Env) :
    ip.plain.eval e env = ip.eval e env := by
  cases e with
  | member t m =>
    rw [Evaluator.eval, eval, h t (by simp [Expr.children]), toInterpreter_plain]
  | call t m args =>
    have hargs : ∀ c ∈ args, ∀ env, ip.plain.eval c env = ip.eval c env :=
      fun c hc => h c (by simp [Expr.children, hc])
    simp only [Evaluator.eval, eval, h t (by simp [Expr.children]), evalAll_plain_of_forall hargs,
      toInterpreter_plain]
  | staticCall m args =>
    have hargs : ip.plain.evalAll args env = ip.evalAll args env := evalAll_plain_of_forall h env
    simp only [Evaluator.eval, eval, hargs, toInterpreter_plain]
  | unary op e => rw [Evaluator.eval, eval, h e (by simp [Expr.children])]
  | binary op l r =>
    have hl := h l (by simp [Expr.children]) env
    have hr := h r (by simp [Expr.children]) env
    cases op with
    | and | or =>
      rw [Evaluator.eval, eval, hl]
      refine bind_congr fun x => ?_
      cases x with
      | bool b => cases b <;> simp only [hr]
      | _ => rfl
    | coalesce =>
      rw [Evaluator.eval, eval, hl]
      refine bind_congr fun x => ?_
      cases x with
      | null => exact hr
      | _ => rfl
    | _ => simp only [Evaluator.eval, eval, hl, hr, applyBinary_plain]
  | conditional t a b =>
    have ha := h a (by simp [Expr.children]) env
    have hb := h b (by simp [Expr.children]) env
    rw [Evaluator.eval, eval, h t (by simp [Expr.children])]
    refine bind_congr fun x => ?_
    cases x with
    | bool holds => cases holds <;> simp only [ha, hb]
    | _ => rfl
  | invoke c args =>
    have hargs : ∀ c ∈ args, ∀ env, ip.plain.eval c env = ip.eval c env :=
      fun c hc => h c (by simp [Expr.children, hc])
    rw [Evaluator.eval, eval, evalAll_plain_of_forall hargs, hcallee c args rfl]
  | _ => rfl

/-- An evaluator that is not strict computes what its interpreter does, also of a callee. -/
theorem plain_agrees (e : Expr) :
    (∀ env, ip.plain.eval e env = ip.eval e env) ∧
      ∀ count args env,
        ip.plain.applyCallee count args e env = ip.applyCallee count args e env := by
  induction e using Expr.byChildren with
  | step e ih =>
    constructor
    · refine eval_plain_of_children (fun c hc => (ih c hc).1) ?_
      rintro c args rfl
      exact (ih c (by simp [Expr.children])).2
    · intro count args env
      cases e with
      | unary op d =>
        have hd := (ih d (by simp [Expr.children])).2 count args env
        cases op with
        | convert | quote => simpa only [Evaluator.applyCallee, applyCallee] using hd
        | not | negate => rfl
      | lambda ps b =>
        have hb := (ih b (by simp [Expr.children])).1
        simp only [Evaluator.applyCallee, applyCallee, hb]
      | _ => rfl

@[simp]
theorem eval_plain (e : Expr) (env : Env) : ip.plain.eval e env = ip.eval e env :=
  (plain_agrees e).1 env

@[simp]
theorem evalAll_plain (es : List Expr) (env : Env) : ip.plain.evalAll es env = ip.evalAll es env :=
  evalAll_plain_of_forall (fun e _ => eval_plain e) env

@[simp]
theorem applyCallee_plain (count : Nat) (args : Except EvalError (List Value))
    (e : Expr) (env : Env) :
    ip.plain.applyCallee count args e env = ip.applyCallee count args e env :=
  (plain_agrees e).2 count args env

end Interpreter

end QueryTree
