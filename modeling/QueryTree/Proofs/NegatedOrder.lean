import Mathlib.Logic.Relation
import QueryTree.Proofs.NegationForm
import QueryTree.Proofs.Normalization

/-! Negations pushed into comparisons by order. No such comparison holds of null, so that neither a
comparison with null nor its inverse holds, and the negation of the first is lost. Nothing else goes
wrong: an expression keeps its value unless its evaluation comes, under a negation, to a comparison
by order with a null operand. -/

namespace QueryTree

/-- An expression under evaluation, which a negation is pushed into or not. -/
structure EvalSite where
  env : Env
  negated : Bool
  expr : Expr

namespace Expr

/-- The direct subexpressions that are evaluated in any case. -/
def operands : Expr → List Expr
  | binary _ l _ => [l]
  | conditional t _ _ => [t]
  | invoke _ args => args
  | lambda _ _ => []
  | e => e.children

theorem mem_children_of_operand {e c : Expr} (h : c ∈ e.operands) : c ∈ e.children := by
  cases e with
  | binary | conditional | invoke => simp_all [operands, children]
  | lambda => cases h
  | _ => exact h

/-- Whether a negation is pushed further into the direct subexpressions. -/
def negatesInside (negated : Bool) : Expr → Bool
  | unary .not _ => !negated
  | binary op _ _ => negated && op.isLogical
  | _ => false

theorem negatesInside_eq_false {e : Expr} {negated : Bool} (h : Normal.Inert e) :
    e.negatesInside negated = false := by
  unfold negatesInside
  split
  next d => exact absurd rfl (h.not_negation d)
  next op l r => exact absurd rfl (h.not_binary op l r)
  next => rfl

end Expr

namespace Interpreter

open Evaluator (needsSecond)
open QueryTree.Normal

variable {ip : Interpreter} {env : Env} {e e' l l' r r' : Expr} {es es' : List Expr}
  {negated : Bool} {v : Value}

/-- Evaluation goes on from one site to another: to an operand, to a second operand that is needed,
to the branch that is taken or to the body of an invoked lambda. -/
inductive Enters (ip : Interpreter) : EvalSite → EvalSite → Prop
  | operand {env : Env} {negated : Bool} {e c : Expr} (hc : c ∈ e.operands) :
      Enters ip ⟨env, negated, e⟩ ⟨env, e.negatesInside negated, c⟩
  | second {env : Env} {negated : Bool} {op : BinaryOp} {l r : Expr} {x : Value}
      (hl : ip.eval l env = .ok x) (hneeds : needsSecond op x) :
      Enters ip ⟨env, negated, .binary op l r⟩ ⟨env, negated && op.isLogical, r⟩
  | branch {env : Env} {negated : Bool} {t a b : Expr} {holds : Bool}
      (ht : ip.eval t env = .ok (.bool holds)) :
      Enters ip ⟨env, negated, .conditional t a b⟩ ⟨env, false, if holds then a else b⟩
  | body {env : Env} {negated : Bool} {c b : Expr} {args : List Expr} {ps : List String}
      {vs : List Value} (hc : c.strip = .lambda ps b) (hlen : ps.length = vs.length)
      (hargs : ip.evalAll args env = .ok vs) :
      Enters ip ⟨env, negated, .invoke c args⟩ ⟨Env.extend ps vs env, false, b⟩

/-- No comparison by order that evaluation comes to under a negation has a null operand. -/
def Orderly (ip : Interpreter) (site : EvalSite) : Prop :=
  ∀ env op l r x y, Relation.ReflTransGen ip.Enters site ⟨env, true, .binary op l r⟩ →
    orders op = true → ip.eval l env = .ok x → ip.eval r env = .ok y → x ≠ .null ∧ y ≠ .null

/-- The condition on a site is one on its own expression and one on the sites entered from it. -/
theorem orderly_iff {site : EvalSite} :
    ip.Orderly site ↔
      (∀ op l r x y, site.negated = true → site.expr = .binary op l r → orders op = true →
        ip.eval l site.env = .ok x → ip.eval r site.env = .ok y → x ≠ .null ∧ y ≠ .null) ∧
      ∀ next, ip.Enters site next → ip.Orderly next := by
  obtain ⟨env, negated, e⟩ := site
  constructor
  · intro h
    constructor
    · rintro op l r x y rfl rfl
      exact h env op l r x y .refl
    · exact fun next hnext env op l r x y hreach => h env op l r x y (.head hnext hreach)
  · rintro ⟨hhere, hnext⟩ env' op l r x y hreach
    rcases hreach.cases_head with heq | ⟨next, henters, hreach⟩
    · obtain ⟨rfl, rfl, rfl⟩ := EvalSite.mk.inj heq
      exact hhere op l r x y rfl rfl
    · exact hnext next henters env' op l r x y hreach

theorem Orderly.enters {site next : EvalSite} (h : ip.Orderly site) (hnext : ip.Enters site next) :
    ip.Orderly next :=
  (orderly_iff.mp h).2 next hnext

theorem orderly_of_leaf (h : e.children = []) : ip.Orderly ⟨env, negated, e⟩ := by
  rw [orderly_iff]
  constructor
  · rintro op l r x y _ rfl
    cases h
  · intro next hnext
    cases hnext with
    | operand hc =>
      have hchild := Expr.mem_children_of_operand hc
      rw [h] at hchild
      cases hchild
    | second | branch | body => cases h

theorem Orderly.not (h : ip.Orderly ⟨env, !negated, e⟩) :
    ip.Orderly ⟨env, negated, .unary .not e⟩ := by
  rw [orderly_iff]
  refine ⟨fun _ _ _ _ _ _ heq => (by cases heq), fun next hnext => ?_⟩
  cases hnext with
  | operand hc =>
    obtain rfl := List.mem_singleton.mp hc
    exact h

theorem Orderly.binary {op : BinaryOp}
    (hnull : negated = true → orders op = true → ∀ x y, ip.eval l env = .ok x →
      ip.eval r env = .ok y → x ≠ .null ∧ y ≠ .null)
    (hl : ip.Orderly ⟨env, negated && op.isLogical, l⟩)
    (hr : ∀ x, ip.eval l env = .ok x → needsSecond op x →
      ip.Orderly ⟨env, negated && op.isLogical, r⟩) :
    ip.Orderly ⟨env, negated, .binary op l r⟩ := by
  rw [orderly_iff]
  constructor
  · rintro _ _ _ x y hneg ⟨⟩ hop hx hy
    exact hnull hneg hop x y hx hy
  · intro next hnext
    cases hnext with
    | operand hc =>
      obtain rfl := List.mem_singleton.mp hc
      exact hl
    | second hx hneeds => exact hr _ hx hneeds

theorem evalAll_mono {vs : List Value}
    (h : List.Forall₂ (fun e e' => ∀ v, ip.eval e env = .ok v → ip.eval e' env = .ok v) es es')
    (hvs : ip.evalAll es env = .ok vs) : ip.evalAll es' env = .ok vs := by
  induction h generalizing vs with
  | nil => exact hvs
  | cons he _ ih =>
    simp only [evalAll, bind_eq_ok] at hvs ⊢
    obtain ⟨v, hv, vs', hvs', heq⟩ := hvs
    exact ⟨v, he v hv, vs', ih hvs', heq⟩

theorem eval_negatedIf_mono (h : ∀ u, ip.eval e env = .ok u → ip.eval e' env = .ok u)
    (hv : ip.eval (negatedIf negated e) env = .ok v) :
    ip.eval (negatedIf negated e') env = .ok v := by
  cases negated with
  | false => exact h v hv
  | true =>
    simp only [← eval_plain] at h hv ⊢
    obtain ⟨u, hu, hv⟩ := eval_not.mp hv
    exact eval_not.mpr ⟨u, h u hu, hv⟩

/-- The value of an expression, negated or not, is not changed by pushing negations inward, and
neither is that of an invocation of it. -/
structure Preserves (ip : Interpreter) (e : Expr) : Prop where
  value : ∀ {env negated e' v}, ip.Orderly ⟨env, negated, e⟩ → negations e negated = .ok e' →
    ip.eval (negatedIf negated e) env = .ok v → ip.eval e' env = .ok v
  callee : ∀ {env : Env} {vs e' v},
    (∀ ps b, e.strip = .lambda ps b → ps.length = vs.length →
      ip.Orderly ⟨Env.extend ps vs env, false, b⟩) →
    negations e false = .ok e' → ip.applyCallee vs.length (.ok vs) e env = .ok v →
    ip.applyCallee vs.length (.ok vs) e' env = .ok v

/-- The operands of a binary node keep their values, the second one where the node goes on to it. -/
theorem Preserves.both {op : BinaryOp} {inner : Bool} (hl : ip.Preserves l) (hr : ip.Preserves r)
    (hinner : (negated && op.isLogical) = inner) (ho : ip.Orderly ⟨env, negated, .binary op l r⟩)
    (hl' : negations l inner = .ok l') (hr' : negations r inner = .ok r') :
    (∀ x, ip.eval (negatedIf inner l) env = .ok x → ip.eval l' env = .ok x) ∧
    ∀ x, ip.eval l env = .ok x → needsSecond op x →
      ∀ y, ip.eval (negatedIf inner r) env = .ok y → ip.eval r' env = .ok y := by
  subst hinner
  constructor
  · exact fun x hx => hl.value (ho.enters (.operand (by simp [Expr.operands]))) hl' hx
  · exact fun x hx hneeds y hy => hr.value (ho.enters (.second hx hneeds)) hr' hy

/-- A node that no negation is pushed through keeps its value over its simplified subexpressions. -/
theorem eval_withChildren (hc : ∀ c ∈ e.children, ip.Preserves c) (hinert : Inert e)
    (ho : ip.Orderly ⟨env, negated, e⟩)
    (hes : List.Forall₂ (fun c c' => negations c false = .ok c') e.children es)
    (h : ip.eval e env = .ok v) : ip.eval (e.withChildren es) env = .ok v := by
  have hoperand : ∀ {c c'}, c ∈ e.operands → negations c false = .ok c' →
      ∀ v, ip.eval c env = .ok v → ip.eval c' env = .ok v := by
    intro c c' hop hneg v hv
    have hnext := ho.enters (.operand hop)
    rw [Expr.negatesInside_eq_false hinert] at hnext
    exact (hc c (Expr.mem_children_of_operand hop)).value hnext hneg hv
  have hargs : ∀ {args args' vs}, (∀ a ∈ args, a ∈ e.operands) →
      List.Forall₂ (fun c c' => negations c false = .ok c') args args' →
      ip.evalAll args env = .ok vs → ip.evalAll args' env = .ok vs := by
    intro args args' vs hmem hall
    exact evalAll_mono (((List.forall₂_and_left _ _).mpr ⟨hmem, hall⟩).imp fun a a' ha =>
      hoperand ha.1 ha.2)
  cases e with
  | member t m =>
    cases hes with | cons ht hnil => cases hnil with | nil =>
    simp only [Expr.withChildren, eval, bind_eq_ok] at h ⊢
    obtain ⟨u, hu, hv⟩ := h
    exact ⟨u, hoperand (by simp [Expr.operands, Expr.children]) ht u hu, hv⟩
  | call t m args =>
    cases hes with | cons ht hall =>
    simp only [Expr.withChildren, eval, bind_eq_ok] at h ⊢
    obtain ⟨u, hu, vs, hvs, hv⟩ := h
    refine ⟨u, hoperand (by simp [Expr.operands, Expr.children]) ht u hu, vs, ?_, hv⟩
    exact hargs (fun a ha => by simp [Expr.operands, Expr.children, ha]) hall hvs
  | staticCall m args =>
    simp only [Expr.withChildren, eval, bind_eq_ok] at h ⊢
    obtain ⟨vs, hvs, hv⟩ := h
    exact ⟨vs, hargs (fun a ha => ha) hes hvs, hv⟩
  | unary op e =>
    cases hes with | cons he hnil => cases hnil with | nil =>
    simp only [Expr.withChildren, eval, bind_eq_ok] at h ⊢
    obtain ⟨u, hu, hv⟩ := h
    exact ⟨u, hoperand (by simp [Expr.operands, Expr.children]) he u hu, hv⟩
  | binary op l r => exact absurd rfl (hinert.not_binary op l r)
  | conditional t a b =>
    cases hes with | cons ht hes => cases hes with | cons ha hes => cases hes with | cons hb hnil =>
    cases hnil with | nil =>
    have htest := hoperand (by simp [Expr.operands]) ht
    have hfirst : ip.eval t env = .ok (.bool true) → ∀ u, ip.eval a env = .ok u → _ :=
      fun hholds u hu => (hc a (by simp [Expr.children])).value (ho.enters (.branch hholds)) ha hu
    have hsecond : ip.eval t env = .ok (.bool false) → ∀ u, ip.eval b env = .ok u → _ :=
      fun hholds u hu => (hc b (by simp [Expr.children])).value (ho.enters (.branch hholds)) hb hu
    simp only [← eval_plain] at h htest hfirst hsecond ⊢
    exact Evaluator.eval_conditional_mono htest hfirst hsecond h
  | invoke c args =>
    cases hes with | cons hcallee hall =>
    simp only [Expr.withChildren, eval] at h ⊢
    obtain ⟨vs, hvs⟩ := evalAll_of_applyCallee h
    have hlen := length_of_evalAll hvs
    rw [hvs, ← hlen] at h
    rw [hargs (fun a ha => ha) hall hvs, ← hall.length_eq, ← hlen]
    exact (hc c (by simp [Expr.children])).callee
      (fun ps b hb hps => ho.enters (.body hb hps hvs)) hcallee h
  | lambda ps b => simp [eval] at h
  | _ => exact h

end Interpreter

namespace Normal

open Evaluator (needsSecond)
open Interpreter

variable {ip : Interpreter} {env : Env} {e e' l r : Expr} {negated : Bool}

theorem negations_yields (e : Expr) (negated : Bool) :
    Yields (fun _ => False) (fun _ => True) (negations e negated) :=
  (negations_rests e negated).mono (fun _ _ => trivial) fun _ herror => herror

/-- Where the inverse of a logical operator goes on to its second operand after a negated first one,
the operator does. -/
theorem needsSecond_of_invert {op inverse : BinaryOp} (hop : op.isLogical = true)
    (hinv : invert op = .ok inverse) {u x : Value} (hux : u.logicalNot = .ok x)
    (h : needsSecond inverse x) : needsSecond op u := by
  cases op with
  | and | or =>
    obtain rfl := Except.ok.inj hinv
    obtain rfl : x = .bool _ := h
    cases u with
    | bool b => simpa [needsSecond, Value.logicalNot] using hux
    | _ => cases hux
  | _ => cases hop

theorem needsSecond_comparison {op : BinaryOp} (hop : op.isComparison = true) (x : Value) :
    needsSecond op x := by
  cases op with
  | and | or | coalesce => cases hop
  | _ => trivial

variable {op : BinaryOp} {v : Value}

/-- A binary node is inverted over negated operands, or over operands that are not null, or kept. -/
theorem eval_negations_binary (hl : ip.Preserves l) (hr : ip.Preserves r)
    (ho : ip.Orderly ⟨env, negated, .binary op l r⟩)
    (he' : negations (.binary op l r) negated = .ok e')
    (hv : ip.eval (negatedIf negated (.binary op l r)) env = .ok v) : ip.eval e' env = .ok v := by
  simp only [negations] at he'
  split at he'
  next hop =>
    obtain ⟨rfl, hop⟩ := Bool.and_eq_true_iff.mp hop
    simp only [bind_eq_ok] at he'
    obtain ⟨inverse, hinv, l', hl', r', hr', heq⟩ := he'
    obtain rfl := Except.ok.inj heq
    obtain ⟨hfirst, hsecond⟩ := hl.both hr hop ho hl' hr'
    simp only [← eval_plain] at hv hfirst hsecond ⊢
    refine Evaluator.eval_binary_mono (.refl _) hfirst (fun x hx hneeds => ?_)
      ((deMorgan_simulates hop hinv l r).value v hv)
    obtain ⟨u, hu, hux⟩ := eval_not.mp hx
    exact hsecond u hu (needsSecond_of_invert hop hinv hux hneeds)
  next hlogical =>
    have hinner : (negated && op.isLogical) = false := Bool.eq_false_iff.mpr hlogical
    split at he'
    next hop =>
      obtain ⟨rfl, hop⟩ := Bool.and_eq_true_iff.mp hop
      simp only [bind_eq_ok] at he'
      obtain ⟨inverse, hinv, l', hl', r', hr', heq⟩ := he'
      obtain rfl := Except.ok.inj heq
      obtain ⟨hfirst, hsecond⟩ := hl.both hr hinner ho hl' hr'
      have hnull := fun x y hx hy horders =>
        (orderly_iff.mp ho).1 op l r x y rfl rfl horders hx hy
      simp only [← eval_plain] at hv hfirst hsecond hnull ⊢
      have hinverse := eval_invert hop hinv
        (fun x y _ hx hy _ horders => hnull x y hx hy horders) hv
      exact Evaluator.eval_binary_mono (.refl _) hfirst
        (fun x hx _ => hsecond x hx (needsSecond_comparison hop x)) hinverse
    next =>
      simp only [bind_eq_ok] at he'
      obtain ⟨l', hl', r', hr', heq⟩ := he'
      obtain rfl := Except.ok.inj heq
      obtain ⟨hfirst, hsecond⟩ := hl.both hr hinner ho hl' hr'
      refine eval_negatedIf_mono (fun u hu => ?_) hv
      simp only [← eval_plain] at hu hfirst hsecond ⊢
      exact Evaluator.eval_binary_mono (.refl _) hfirst hsecond hu

theorem eval_negations_constant {w : Value} (he' : negations (.constant w) negated = .ok e')
    (hv : ip.eval (negatedIf negated (.constant w)) env = .ok v) : ip.eval e' env = .ok v := by
  cases negated <;> cases w <;> obtain rfl := Except.ok.inj he' <;> exact hv

theorem applyCallee_negations {vs : List Value} (hc : ∀ c ∈ e.children, ip.Preserves c)
    (ho : ∀ ps b, e.strip = .lambda ps b → ps.length = vs.length →
      ip.Orderly ⟨Env.extend ps vs env, false, b⟩)
    (he' : negations e false = .ok e') (hv : ip.applyCallee vs.length (.ok vs) e env = .ok v) :
    ip.applyCallee vs.length (.ok vs) e' env = .ok v := by
  cases e with
  | unary op d =>
    have hd := hc d (by simp [Expr.children])
    cases op with
    | convert | quote =>
      simp only [negations, bind_eq_ok] at he'
      obtain ⟨d', hd', heq⟩ := he'
      obtain rfl := Except.ok.inj heq
      rw [applyCallee] at hv
      rw [negatedIf, if_neg Bool.false_ne_true, applyCallee]
      exact hd.callee ho hd' hv
    | not | negate => simp [applyCallee] at hv
  | lambda ps b =>
    simp only [negations, bind_eq_ok] at he'
    obtain ⟨b', hb', heq⟩ := he'
    obtain rfl := Except.ok.inj heq
    rw [applyCallee] at hv
    rw [negatedIf, if_neg Bool.false_ne_true, applyCallee]
    split at hv
    next hps =>
      rw [if_pos hps]
      exact (hc b (by simp [Expr.children])).value (ho ps b rfl hps) hb' hv
    next => cases hv
  | _ => simp [applyCallee] at hv

theorem preserves (ip : Interpreter) (e : Expr) : ip.Preserves e := by
  induction e using byNegations with
  | constant w =>
    refine ⟨?_, applyCallee_negations (by simp [Expr.children])⟩
    intro env negated e' v _ he' hv
    exact eval_negations_constant he' hv
  | negation d ih =>
    refine ⟨?_, applyCallee_negations (by simpa [Expr.children] using ih)⟩
    intro env negated e' v ho he' hv
    rw [negations] at he'
    refine ih.value (ho.enters (.operand (by simp [Expr.operands, Expr.children]))) he' ?_
    cases negated with
    | false => exact hv
    | true =>
      rw [← eval_plain] at hv ⊢
      exact (not_not_simulates d).value v hv
  | binary op l r ihl ihr =>
    refine ⟨?_, applyCallee_negations (by simpa [Expr.children] using ⟨ihl, ihr⟩)⟩
    intro env negated e' v ho he' hv
    exact eval_negations_binary ihl ihr ho he' hv
  | inert e hinert ih =>
    refine ⟨?_, applyCallee_negations ih⟩
    intro env negated e' v ho he' hv
    rw [hinert.negations_eq_map, map_eq_ok] at he'
    obtain ⟨es, hes, rfl⟩ := he'
    exact eval_negatedIf_mono
      (fun u => eval_withChildren ih hinert ho (negationsAll_forall₂ hes)) hv

/-! ### Null -/

theorem eval_orders_null (hop : orders op = true) {x y : Value}
    (hl : ip.eval l env = .ok x) (hr : ip.eval r env = .ok y) (hnull : x = .null ∨ y = .null) :
    ip.eval (.binary op l r) env = .ok (.bool false) := by
  have hcomparison : op.isComparison = true := by
    cases op with
    | gt | ge | lt | le => rfl
    | _ => cases hop
  simp only [← eval_plain] at hl hr ⊢
  refine (eval_comparison hcomparison).mpr ⟨x, hl, y, hr, ?_⟩
  rw [applyBinary_of_orders hop, Evaluator.compareOrder, if_neg (by simp [plain]), compareOrder]
  rcases hnull with rfl | rfl <;> simp [Value.isNull]

theorem negations_not_orders (hop : orders op = true) {l' r' : Expr}
    (hl : negations l false = .ok l') (hr : negations r false = .ok r') :
    ∃ inverse, orders inverse = true ∧
      negations (.unary .not (.binary op l r)) false = .ok (.binary inverse l' r') := by
  cases op with
  | gt | ge | lt | le =>
    simp only [negations, hl, hr]
    exact ⟨_, rfl, rfl⟩
  | _ => cases hop

/-- The negation of a comparison by order with null holds, and what it is pushed into does not. -/
theorem eval_negations_null (hop : orders op = true) {x y : Value}
    (hl : ip.eval l env = .ok x) (hr : ip.eval r env = .ok y) (hnull : x = .null ∨ y = .null)
    (hol : ip.Orderly ⟨env, false, l⟩) (hor : ip.Orderly ⟨env, false, r⟩) :
    ip.eval (.unary .not (.binary op l r)) env = .ok (.bool true) ∧
    ∃ e', negations (.unary .not (.binary op l r)) false = .ok e' ∧
      ip.eval e' env = .ok (.bool false) := by
  constructor
  · rw [← eval_plain, eval_not]
    exact ⟨_, (eval_plain _ _).trans (eval_orders_null hop hl hr hnull), rfl⟩
  · obtain ⟨l', hl', _⟩ := (negations_yields l false).exists_ok
    obtain ⟨r', hr', _⟩ := (negations_yields r false).exists_ok
    obtain ⟨inverse, hinverse, heq⟩ := negations_not_orders hop hl' hr'
    exact ⟨_, heq, eval_orders_null hinverse ((preserves ip l).value hol hl' hl)
      ((preserves ip r).value hor hr' hr) hnull⟩

theorem negations_order_null :
    (ofFunctions .empty).eval
        (.unary .not (.binary .gt (.constant .null) (.constant (.int 1)))) [] =
      .ok (.bool true) ∧
    ∃ e',
      negations (.unary .not (.binary .gt (.constant .null) (.constant (.int 1)))) false = .ok e' ∧
      (ofFunctions .empty).eval e' [] = .ok (.bool false) :=
  eval_negations_null rfl rfl rfl (.inl rfl) (orderly_of_leaf rfl) (orderly_of_leaf rfl)

/-- An expression keeps its value when negations are pushed inward, unless its evaluation comes,
under a negation, to a comparison by order with a null operand. -/
theorem eval_negations (ip : Interpreter) (env : Env) (e : Expr) (v : Value)
    (hv : ip.eval e env = .ok v) (ho : ip.Orderly ⟨env, false, e⟩) :
    ∃ e', negations e false = .ok e' ∧ ip.eval e' env = .ok v := by
  obtain ⟨e', he', _⟩ := (negations_yields e false).exists_ok
  exact ⟨e', he', (preserves ip e).value ho he' hv⟩

/-- A comparison that a test for null keeps from being evaluated. -/
def guardedOrder : Expr :=
  .unary .not (.binary .or (.binary .eq (.var "x") (.constant .null))
    (.binary .gt (.var "x") (.constant (.int 1))))

theorem eval_negations_guardedOrder :
    ∃ e', negations guardedOrder false = .ok e' ∧
      (ofFunctions .empty).eval e' [("x", .null)] = .ok (.bool false) := by
  refine eval_negations (ofFunctions .empty) [("x", .null)] guardedOrder (.bool false) rfl ?_
  have htest : (ofFunctions .empty).Orderly
      ⟨[("x", .null)], true, .binary .eq (.var "x") (.constant .null)⟩ :=
    .binary (fun _ hop => (by cases hop)) (orderly_of_leaf rfl) fun _ _ _ => orderly_of_leaf rfl
  refine .not (.binary (fun _ hop => (by cases hop)) htest fun x hx hneeds => ?_)
  -- the test holds, so the comparison is not evaluated
  obtain rfl : .bool true = x := Except.ok.inj hx
  cases hneeds

end Normal

end QueryTree
