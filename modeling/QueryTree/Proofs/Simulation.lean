import QueryTree.Proofs.StrictEvaluation

/-! Simulation between expressions: whatever value the first has, the second has too. The two may be
evaluated in different environments, and the second by a less strict evaluator. Every kind of node
passes a simulation on from its direct subexpressions. -/

namespace QueryTree

namespace Expr

theorem mapChildren_id (e : Expr) : e.mapChildren id = e := by
  cases e <;> simp [mapChildren]

theorem freeVars_of_child {e c : Expr} (hlambda : ∀ ps b, e ≠ lambda ps b) (hc : c ∈ e.children)
    {x : String} (hx : x ∈ c.freeVars) : x ∈ e.freeVars := by
  cases e with
  | lambda ps b => exact absurd rfl (hlambda ps b)
  | _ => grind [children, freeVars, freeVarsOf_eq_flatMap]

end Expr

section

variable {β : Type} {ps : List String} {vs : List β} {x : String}

theorem lookup_zip_of_not_mem (h : x ∉ ps) : (ps.zip vs).reverse.lookup x = none := by
  rw [List.lookup_eq_none_iff]
  intro p hp
  have hmem := (List.of_mem_zip (List.mem_reverse.mp hp)).1
  rw [bne_iff_ne]
  rintro rfl
  exact h hmem

theorem lookup_zip_of_mem (hlen : vs.length = ps.length) (h : x ∈ ps) :
    ∃ w, (ps.zip vs).reverse.lookup x = some w := by
  rw [← Option.isSome_iff_exists, List.lookup_isSome_iff]
  rw [← List.map_fst_zip (Nat.le_of_eq hlen.symm)] at h
  obtain ⟨p, hp, rfl⟩ := List.mem_map.mp h
  exact ⟨p, List.mem_reverse.mpr hp, beq_self_eq_true _⟩

theorem lookup_zip_cons_of_mem (hlen : vs.length = ps.length) (h : x ∈ ps) (p : String) (v : β) :
    ((p :: ps).zip (v :: vs)).reverse.lookup x = (ps.zip vs).reverse.lookup x := by
  obtain ⟨w, hw⟩ := lookup_zip_of_mem hlen h
  rw [List.zip_cons_cons, List.reverse_cons, List.lookup_append, hw, Option.some_or]

theorem lookup_zip_cons_self (h : x ∉ ps) (v : β) :
    ((x :: ps).zip (v :: vs)).reverse.lookup x = some v := by
  rw [List.zip_cons_cons, List.reverse_cons, List.lookup_append, lookup_zip_of_not_mem h,
    Option.none_or, List.lookup_cons_self]

end

namespace Env

variable {ps : List String} {vs : List Value} {env env' : Env} {x : String}

theorem extend_cons (p : String) (v : Value) :
    extend (p :: ps) (v :: vs) env = extend ps vs ((p, v) :: env) := by
  simp [extend]

theorem lookup_extend_of_not_mem (h : x ∉ ps) : (extend ps vs env).lookup x = env.lookup x := by
  rw [extend, List.lookup_append, lookup_zip_of_not_mem h, Option.none_or]

theorem lookup_extend_of_mem (hlen : vs.length = ps.length) (h : x ∈ ps) :
    ∃ w, ∀ env : Env, (extend ps vs env).lookup x = some w := by
  obtain ⟨w, hw⟩ := lookup_zip_of_mem hlen h
  refine ⟨w, fun env => ?_⟩
  rw [extend, List.lookup_append, hw, Option.some_or]

end Env

namespace Evaluator

open Interpreter (expectLogical)

/-- An evaluator that computes alike and refuses no more. -/
structure Loosens (ip ip' : Evaluator) : Prop where
  functions : ip'.functions = ip.functions
  context : ip'.context = ip.context
  strict : ip'.strict = true → ip.strict = true

theorem Loosens.refl (ip : Evaluator) : ip.Loosens ip := ⟨rfl, rfl, id⟩

theorem strictly_loosens (ip : Evaluator) : ip.strictly.Loosens ip := ⟨rfl, rfl, fun _ => rfl⟩

/-- What an expression yields in an environment, as a value and as the callee of an invocation,
another one yields in another environment. -/
structure Simulates (ip ip' : Evaluator) (env env' : Env) (e e' : Expr) : Prop where
  value : ∀ v, ip.eval e env = .ok v → ip'.eval e' env' = .ok v
  callee : ∀ vs v, ip.applyCallee vs.length (.ok vs) e env = .ok v →
    ip'.applyCallee vs.length (.ok vs) e' env' = .ok v

/-- The same for lists of arguments. -/
structure SimulatesAll (ip ip' : Evaluator) (env env' : Env) (es es' : List Expr) : Prop where
  length : es'.length = es.length
  values : ∀ vs, ip.evalAll es env = .ok vs → ip'.evalAll es' env' = .ok vs

variable {ip ip' : Evaluator} {env env' : Env} {e e' t t' l l' r r' a a' b b' : Expr}
  {es es' : List Expr} {v : Value}

theorem Loosens.readMember (h : ip.Loosens ip') (target : Option Value) (m : Member) :
    ip'.readMember target m = ip.readMember target m := by
  unfold Interpreter.readMember
  rw [h.functions]

theorem Loosens.callMethod (h : ip.Loosens ip') (target : Option Value) (m : Method)
    (args : List Value) : ip'.callMethod target m args = ip.callMethod target m args := by
  unfold Interpreter.callMethod
  rw [h.functions]

theorem Loosens.compareOrder (h : ip.Loosens ip') {op : BinaryOp} {x y : Value}
    (hv : ip.compareOrder op x y = .ok v) : ip'.compareOrder op x y = .ok v := by
  unfold Evaluator.compareOrder at hv ⊢
  by_cases hrefused : (ip.strict && (x.isNull || y.isNull)) = true
  · rw [if_pos hrefused] at hv
    cases hv
  · have hrefused' : ¬ (ip'.strict && (x.isNull || y.isNull)) = true := by
      rw [Bool.and_eq_true_iff] at hrefused ⊢
      exact fun hnull => hrefused ⟨h.strict hnull.1, hnull.2⟩
    rw [if_neg hrefused] at hv
    rwa [if_neg hrefused']

theorem Loosens.applyBinary (h : ip.Loosens ip') {op : BinaryOp} {x y : Value}
    (hv : ip.applyBinary op x y = .ok v) : ip'.applyBinary op x y = .ok v := by
  cases op with
  | gt | ge | lt | le => exact h.compareOrder hv
  | _ => exact hv

attribute [local simp] eval evalAll applyCallee

theorem eval_var {x : String} : ip.eval (.var x) env = .ok v ↔ env.lookup x = some v := by
  simp only [eval]
  cases env.lookup x <;> simp

theorem length_of_evalAll {vs : List Value} (h : ip.evalAll es env = .ok vs) :
    vs.length = es.length := by
  induction es generalizing vs with
  | nil =>
    obtain rfl := Except.ok.inj h
    rfl
  | cons e es ih =>
    simp only [evalAll, bind_eq_ok] at h
    obtain ⟨v, _, vs', hvs, heq⟩ := h
    obtain rfl := Except.ok.inj heq
    simp [ih hvs]

theorem evalAll_of_applyCallee {count : Nat} {args : Except EvalError (List Value)} {c : Expr}
    (h : ip.applyCallee count args c env = .ok v) : ∃ vs, args = .ok vs := by
  induction c using Expr.byChildren with
  | step c ih =>
    cases c with
    | unary op e =>
      cases op with
      | convert | quote =>
        exact ih e (by simp [Expr.children]) (by simpa only [applyCallee] using h)
      | not | negate => simp at h
    | lambda ps b =>
      simp only [applyCallee] at h
      split at h
      · obtain ⟨vs, hvs, _⟩ := bind_eq_ok.mp h
        exact ⟨vs, hvs⟩
      · cases h
    | _ => simp at h

/-- Whether an operator goes on to its second operand when the first one has this value. -/
def needsSecond (op : BinaryOp) (x : Value) : Prop :=
  match op with
  | .and => x = .bool true
  | .or => x = .bool false
  | .coalesce => x = .null
  | _ => True

/-- A binary node depends on its second operand only where it goes on to it. -/
theorem eval_binary_mono {op : BinaryOp} (hip : ip.Loosens ip')
    (hl : ∀ x, ip.eval l env = .ok x → ip'.eval l' env' = .ok x)
    (hr : ∀ x, ip.eval l env = .ok x → needsSecond op x →
      ∀ y, ip.eval r env = .ok y → ip'.eval r' env' = .ok y)
    (h : ip.eval (.binary op l r) env = .ok v) : ip'.eval (.binary op l' r') env' = .ok v := by
  have hlogical : ∀ x, ip.eval l env = .ok x → needsSecond op x →
      (ip.eval r env).bind expectLogical = .ok v →
        (ip'.eval r' env').bind expectLogical = .ok v := by
    intro x hx hneeds h
    obtain ⟨y, hy, hv⟩ := bind_eq_ok.mp h
    exact bind_eq_ok.mpr ⟨y, hr x hx hneeds y hy, hv⟩
  cases op with
  | and | or =>
    simp only [eval, bind_eq_ok] at h ⊢
    obtain ⟨x, hx, hv⟩ := h
    refine ⟨x, hl x hx, ?_⟩
    split at hv
    · exact hv
    · exact hlogical _ hx rfl hv
    · cases hv
  | coalesce =>
    simp only [eval, bind_eq_ok] at h ⊢
    obtain ⟨x, hx, hv⟩ := h
    refine ⟨x, hl x hx, ?_⟩
    split at hv
    · exact hr _ hx rfl v hv
    · exact hv
  | _ =>
    simp only [eval, bind_eq_ok] at h ⊢
    obtain ⟨x, hx, y, hy, hv⟩ := h
    exact ⟨x, hl x hx, y, hr x hx trivial y hy, hip.applyBinary hv⟩

theorem eval_conditional_mono (ht : ∀ u, ip.eval t env = .ok u → ip'.eval t' env' = .ok u)
    (ha : ip.eval t env = .ok (.bool true) → ∀ u, ip.eval a env = .ok u → ip'.eval a' env' = .ok u)
    (hb : ip.eval t env = .ok (.bool false) → ∀ u, ip.eval b env = .ok u → ip'.eval b' env' = .ok u)
    (h : ip.eval (.conditional t a b) env = .ok v) :
    ip'.eval (.conditional t' a' b') env' = .ok v := by
  simp only [eval, bind_eq_ok] at h ⊢
  obtain ⟨u, hu, hv⟩ := h
  refine ⟨u, ht u hu, ?_⟩
  split at hv
  · exact ha hu v hv
  · exact hb hu v hv
  · cases hv

theorem SimulatesAll.of_forall₂ (h : List.Forall₂ (Simulates ip ip' env env') es es') :
    SimulatesAll ip ip' env env' es es' where
  length := h.length_eq.symm
  values := by
    induction h with
    | nil => exact fun _ h => h
    | cons he _ ih =>
      intro vs h
      simp only [evalAll, bind_eq_ok] at h ⊢
      obtain ⟨v, hv, vs', hvs, heq⟩ := h
      exact ⟨v, he.value v hv, vs', ih vs' hvs, heq⟩

namespace Simulates

/-- Where the first expression is no lambda, only its value counts. -/
theorem of_value (h : ∀ v, ip.eval e env = .ok v → ip'.eval e' env' = .ok v)
    (hc : ∀ vs : List Value, ip.applyCallee vs.length (.ok vs) e env = .error .notInlineLambda) :
    Simulates ip ip' env env' e e' :=
  ⟨h, fun vs _ hv => nomatch (hc vs).symm.trans hv⟩

theorem member (hip : ip.Loosens ip') (m : Member) (ht : Simulates ip ip' env env' t t') :
    Simulates ip ip' env env' (.member t m) (.member t' m) := by
  refine of_value (fun v h => ?_) fun _ => rfl
  simp only [eval, bind_eq_ok] at h ⊢
  obtain ⟨target, htarget, hv⟩ := h
  exact ⟨target, ht.value _ htarget, by rw [hip.readMember, hv]⟩

theorem call (hip : ip.Loosens ip') (m : Method) (ht : Simulates ip ip' env env' t t')
    (hes : SimulatesAll ip ip' env env' es es') :
    Simulates ip ip' env env' (.call t m es) (.call t' m es') := by
  refine of_value (fun v h => ?_) fun _ => rfl
  simp only [eval, bind_eq_ok] at h ⊢
  obtain ⟨target, htarget, vs, hvs, hv⟩ := h
  exact ⟨target, ht.value _ htarget, vs, hes.values _ hvs, by rw [hip.callMethod, hv]⟩

theorem staticCall (hip : ip.Loosens ip') (m : Method)
    (hes : SimulatesAll ip ip' env env' es es') :
    Simulates ip ip' env env' (.staticCall m es) (.staticCall m es') := by
  refine of_value (fun v h => ?_) fun _ => rfl
  simp only [eval, bind_eq_ok] at h ⊢
  obtain ⟨vs, hvs, hv⟩ := h
  exact ⟨vs, hes.values _ hvs, by rw [hip.callMethod, hv]⟩

theorem unary (op : UnaryOp) (he : Simulates ip ip' env env' e e') :
    Simulates ip ip' env env' (.unary op e) (.unary op e') where
  value := by
    intro v h
    simp only [eval, bind_eq_ok] at h ⊢
    obtain ⟨u, hu, hv⟩ := h
    exact ⟨u, he.value _ hu, hv⟩
  callee := by
    intro vs v h
    cases op with
    | convert | quote =>
      simp only [applyCallee] at h ⊢
      exact he.callee vs v h
    | not | negate => simp at h

theorem binary (hip : ip.Loosens ip') (op : BinaryOp) (hl : Simulates ip ip' env env' l l')
    (hr : Simulates ip ip' env env' r r') :
    Simulates ip ip' env env' (.binary op l r) (.binary op l' r') :=
  of_value (fun _ => eval_binary_mono hip hl.value fun _ _ _ => hr.value) fun _ => rfl

theorem conditional (ht : Simulates ip ip' env env' t t') (ha : Simulates ip ip' env env' a a')
    (hb : Simulates ip ip' env env' b b') :
    Simulates ip ip' env env' (.conditional t a b) (.conditional t' a' b') :=
  of_value (fun _ => eval_conditional_mono ht.value (fun _ => ha.value) fun _ => hb.value)
    fun _ => rfl

theorem lambda {ps ps' : List String} (hlen : ps'.length = ps.length)
    (hb : ∀ vs v, vs.length = ps.length → ip.eval b (Env.extend ps vs env) = .ok v →
      ip'.eval b' (Env.extend ps' vs env') = .ok v) :
    Simulates ip ip' env env' (.lambda ps b) (.lambda ps' b') where
  value := by simp
  callee := by
    intro vs v h
    simp only [applyCallee] at h ⊢
    by_cases hps : ps.length = vs.length
    · rw [if_pos hps] at h
      rw [if_pos (hlen.trans hps)]
      exact hb vs v hps.symm h
    · rw [if_neg hps] at h
      cases h

theorem invoke {c c' : Expr} (hc : Simulates ip ip' env env' c c')
    (hes : SimulatesAll ip ip' env env' es es') :
    Simulates ip ip' env env' (.invoke c es) (.invoke c' es') := by
  refine of_value (fun v h => ?_) fun _ => rfl
  simp only [eval] at h ⊢
  obtain ⟨vs, hvs⟩ := evalAll_of_applyCallee h
  have hlen := length_of_evalAll hvs
  rw [hvs, ← hlen] at h
  rw [hes.values vs hvs, hes.length, ← hlen]
  exact hc.callee vs v h

/-- A node that neither reads nor binds variables passes on what holds of its subexpressions. -/
theorem withChildren (hip : ip.Loosens ip') (hvar : ∀ x, e ≠ .var x)
    (hlambda : ∀ ps b, e ≠ .lambda ps b)
    (h : List.Forall₂ (Simulates ip ip' env env') e.children es) :
    Simulates ip ip' env env' e (e.withChildren es) := by
  cases e with
  | constant | parameter | entityQuery | sourceRef | subQuery =>
    exact of_value (fun v hv => by simpa only [eval, Expr.withChildren] using hv) fun _ => rfl
  | context =>
    refine of_value (fun v hv => ?_) fun _ => rfl
    simp only [eval, Expr.withChildren] at hv ⊢
    rw [hip.context, hv]
  | staticMember m =>
    refine of_value (fun v hv => ?_) fun _ => rfl
    simp only [eval, Expr.withChildren] at hv ⊢
    rw [hip.readMember, hv]
  | var x => exact absurd rfl (hvar x)
  | lambda ps b => exact absurd rfl (hlambda ps b)
  | member t m =>
    cases h with | cons ht hnil => cases hnil with | nil =>
    exact member hip m ht
  | call t m args =>
    cases h with | cons ht hargs =>
    exact call hip m ht (.of_forall₂ hargs)
  | staticCall m args => exact staticCall hip m (.of_forall₂ h)
  | unary op e =>
    cases h with | cons he hnil => cases hnil with | nil =>
    exact unary op he
  | binary op l r =>
    cases h with | cons hl h => cases h with | cons hr hnil => cases hnil with | nil =>
    exact binary hip op hl hr
  | conditional t a b =>
    cases h with | cons ht h => cases h with | cons ha h => cases h with | cons hb hnil =>
    cases hnil with | nil =>
    exact conditional ht ha hb
  | invoke c args =>
    cases h with | cons hc hargs =>
    exact invoke hc (.of_forall₂ hargs)

theorem mapChildren (hip : ip.Loosens ip') {f : Expr → Expr} (hvar : ∀ x, e ≠ .var x)
    (hlambda : ∀ ps b, e ≠ .lambda ps b)
    (h : ∀ c ∈ e.children, Simulates ip ip' env env' c (f c)) :
    Simulates ip ip' env env' e (e.mapChildren f) := by
  rw [← Expr.withChildren_map]
  apply withChildren hip hvar hlambda
  rw [List.forall₂_map_right_iff, List.forall₂_same]
  exact h

theorem var {x : String} (h : ∀ w, env.lookup x = some w → ip'.eval e' env' = .ok w) :
    Simulates ip ip' env env' (.var x) e' := by
  exact of_value (fun v hv => h v (eval_var.mp hv)) fun _ => rfl

/-- An expression keeps its value where its free variables keep theirs. -/
theorem weaken (hip : ip.Loosens ip')
    (h : ∀ x ∈ e.freeVars, ∀ w, env.lookup x = some w → env'.lookup x = some w) :
    Simulates ip ip' env env' e e := by
  induction e using Expr.byScopes generalizing env env' with
  | var x => exact var fun w hw => eval_var.mpr (h x (by simp [Expr.freeVars]) w hw)
  | lambda ps b ih =>
    refine lambda rfl fun vs v hlen hv => ?_
    refine (ih fun x hx w hw => ?_).value v hv
    by_cases hps : x ∈ ps
    · obtain ⟨w', hw'⟩ := Env.lookup_extend_of_mem hlen hps
      rw [hw'] at hw ⊢
      exact hw
    · rw [Env.lookup_extend_of_not_mem hps] at hw ⊢
      exact h x (by simp [Expr.freeVars, hx, hps]) w hw
  | node e hvar hlambda ih =>
    have hchildren : List.Forall₂ (Simulates ip ip' env env') e.children e.children :=
      List.forall₂_same.mpr fun c hc => ih c hc fun x hx =>
        h x (Expr.freeVars_of_child hlambda hc hx)
    have hnode := withChildren hip hvar hlambda hchildren
    rwa [Expr.withChildren_children] at hnode

end Simulates

end Evaluator

namespace Interpreter

variable {ip : Interpreter} {env : Env} {es : List Expr} {v : Value}

theorem eval_var {x : String} : ip.eval (.var x) env = .ok v ↔ env.lookup x = some v := by
  rw [← eval_plain, Evaluator.eval_var]

theorem length_of_evalAll {vs : List Value} (h : ip.evalAll es env = .ok vs) :
    vs.length = es.length := by
  rw [← evalAll_plain] at h
  exact Evaluator.length_of_evalAll h

theorem evalAll_of_applyCallee {count : Nat} {args : Except EvalError (List Value)} {c : Expr}
    (h : ip.applyCallee count args c env = .ok v) : ∃ vs, args = .ok vs := by
  rw [← applyCallee_plain] at h
  exact Evaluator.evalAll_of_applyCallee h

end Interpreter

end QueryTree
