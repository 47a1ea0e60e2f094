import QueryTree.Proofs.Simulation

/-! Agreement between expressions: the two evaluate to the same value or to the same error. A node
passes an agreement on from its direct subexpressions, and an expression depends on its environment
through its free variables only. -/

namespace QueryTree.Interpreter

variable {ip : Interpreter} {env env' env'' : Env} {e e' e'' b b' : Expr} {es : List Expr}
  {ps ps' : List String} {x : String} {v : Value}

/-- Two expressions, each in its environment, evaluate alike by themselves and as callees of an
invocation. -/
structure Agrees (ip : Interpreter) (env env' : Env) (e e' : Expr) : Prop where
  value : ip.eval e env = ip.eval e' env'
  callee : ∀ count args, (∀ vs, args = .ok vs → vs.length = count) →
    ip.applyCallee count args e env = ip.applyCallee count args e' env'

/-- What has a value is no lambda. -/
theorem applyCallee_of_value (h : ip.eval e env = .ok v) (count : Nat)
    (args : Except EvalError (List Value)) :
    ip.applyCallee count args e env = .error .notInlineLambda := by
  induction e using Expr.byChildren generalizing v with
  | step e ih =>
    cases e with
    | unary op e =>
      simp only [eval, bind_eq_ok] at h
      obtain ⟨u, hu, _⟩ := h
      cases op with
      | convert | quote =>
        rw [applyCallee]
        exact ih e (by simp [Expr.children]) hu
      | not | negate => rfl
    | lambda ps b => simp [eval] at h
    | _ => rfl

theorem evalAll_map {f : Expr → Expr} (h : ∀ e ∈ es, ip.eval e env = ip.eval (f e) env') :
    ip.evalAll es env = ip.evalAll (es.map f) env' := by
  induction es with
  | nil => rfl
  | cons e es ih =>
    rw [List.forall_mem_cons] at h
    rw [List.map_cons, evalAll, evalAll, h.1, ih h.2]

namespace Agrees

theorem trans (h : Agrees ip env env' e e') (h' : Agrees ip env' env'' e' e'') :
    Agrees ip env env'' e e'' :=
  ⟨h.value.trans h'.value,
    fun count args hargs => (h.callee count args hargs).trans (h'.callee count args hargs)⟩

theorem of_value (h : ip.eval e env = .ok v) (h' : ip.eval e' env' = .ok v) :
    Agrees ip env env' e e' where
  value := h.trans h'.symm
  callee count args _ := by rw [applyCallee_of_value h, applyCallee_of_value h']

theorem var (h : env.lookup x = env'.lookup x) : Agrees ip env env' (.var x) (.var x) where
  value := by rw [eval, eval, h]
  callee _ _ _ := rfl

theorem lambda (hlen : ps'.length = ps.length)
    (hb : ∀ vs : List Value, vs.length = ps.length →
      ip.eval b (Env.extend ps vs env) = ip.eval b' (Env.extend ps' vs env')) :
    Agrees ip env env' (.lambda ps b) (.lambda ps' b') where
  value := rfl
  callee count args hargs := by
    rw [applyCallee, applyCallee, hlen]
    split
    next hcount =>
      cases args with
      | error error => rfl
      | ok vs => exact hb vs ((hargs vs rfl).trans hcount.symm)
    next => rfl

/-- A node that neither reads nor binds variables passes on what holds of its subexpressions. -/
theorem mapChildren {f : Expr → Expr} (hvar : ∀ x, e ≠ .var x) (hlambda : ∀ ps b, e ≠ .lambda ps b)
    (h : ∀ c ∈ e.children, Agrees ip env env' c (f c)) :
    Agrees ip env env' e (e.mapChildren f) := by
  cases e with
  | var x => exact absurd rfl (hvar x)
  | lambda ps b => exact absurd rfl (hlambda ps b)
  | member t m =>
    refine ⟨?_, fun _ _ _ => rfl⟩
    rw [Expr.mapChildren, eval, eval, (h t (by simp [Expr.children])).value]
  | call t m args =>
    rw [Expr.children, List.forall_mem_cons] at h
    refine ⟨?_, fun _ _ _ => rfl⟩
    rw [Expr.mapChildren, eval, eval, h.1.value, evalAll_map fun a ha => (h.2 a ha).value]
  | staticCall m args =>
    rw [Expr.children] at h
    refine ⟨?_, fun _ _ _ => rfl⟩
    rw [Expr.mapChildren, eval, eval, evalAll_map fun a ha => (h a ha).value]
  | unary op t =>
    have ht := h t (by simp [Expr.children])
    refine ⟨by rw [Expr.mapChildren, eval, eval, ht.value], fun count args hargs => ?_⟩
    cases op with
    | convert | quote =>
      rw [Expr.mapChildren, applyCallee, applyCallee]
      exact ht.callee count args hargs
    | not | negate => rfl
  | binary op l r =>
    have hl := (h l (by simp [Expr.children])).value
    have hr := (h r (by simp [Expr.children])).value
    refine ⟨?_, fun _ _ _ => rfl⟩
    cases op <;> simp only [Expr.mapChildren, eval, hl, hr]
  | conditional t a b =>
    refine ⟨?_, fun _ _ _ => rfl⟩
    rw [Expr.mapChildren, eval, eval, (h t (by simp [Expr.children])).value,
      (h a (by simp [Expr.children])).value, (h b (by simp [Expr.children])).value]
  | invoke c args =>
    rw [Expr.children, List.forall_mem_cons] at h
    refine ⟨?_, fun _ _ _ => rfl⟩
    rw [Expr.mapChildren, eval, eval, List.length_map, ← evalAll_map fun a ha => (h.2 a ha).value]
    exact h.1.callee _ _ fun vs hvs => length_of_evalAll hvs
  | _ => exact ⟨rfl, fun _ _ _ => rfl⟩

/-- Evaluation reads the free variables of an expression and no others. -/
theorem of_freeVars (h : ∀ x ∈ e.freeVars, env.lookup x = env'.lookup x) :
    Agrees ip env env' e e := by
  induction e using Expr.byScopes generalizing env env' with
  | var x => exact var (h x (by simp [Expr.freeVars]))
  | lambda ps b ih =>
    refine lambda rfl fun vs hlen => (ih fun x hx => ?_).value
    by_cases hps : x ∈ ps
    · obtain ⟨w, hw⟩ := Env.lookup_extend_of_mem hlen hps
      rw [hw, hw]
    · rw [Env.lookup_extend_of_not_mem hps, Env.lookup_extend_of_not_mem hps]
      exact h x (by simp [Expr.freeVars, hx, hps])
  | node e hvar hlambda ih =>
    have hmap := mapChildren hvar hlambda (f := id) fun c hc =>
      ih c hc fun x hx => h x (Expr.freeVars_of_child hlambda hc hx)
    rwa [Expr.mapChildren_id] at hmap

end Agrees

end QueryTree.Interpreter
