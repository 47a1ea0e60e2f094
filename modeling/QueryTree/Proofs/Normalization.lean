import QueryTree.Proofs.PassReference
import QueryTree.Proofs.Substitution

/-! The passes of the normal form keep the meaning of expressions: what has a value under strict
evaluation has the same value in normal form. -/

namespace QueryTree

/-- String tests and comparisons are the built-in ones. The comparison of the other front end, if
there is one, takes a truth value for ignoring case. -/
structure FunctionTable.StandardStrings (t : FunctionTable) : Prop where
  builtin : ∀ s ∈ [Method.stringStartsWith.signature, Method.stringEndsWith.signature,
    Method.stringCompare.signature], t.method? s = Builtin.methods.lookup s
  compareString : ∀ f, t.method? Method.compareString.signature = some f →
    ∀ x y flag v, f none [x, y, flag] = .ok v → ∃ ignoreCase, flag = .bool ignoreCase ∧
      Builtin.stringCompare none [x, y,
        (if ignoreCase then StringComparison.ordinalIgnoreCase else .ordinal).toValue] = .ok v

namespace Evaluator

/-- Whatever value an expression has under strict evaluation, another one has. -/
def Refines (ip : Evaluator) (e e' : Expr) : Prop :=
  ∀ env, Simulates ip.strictly ip env env e e'

variable {ip ip' ip'' : Evaluator} {env env' env'' : Env} {e e' e'' t t' l l' r r' a a' b b' : Expr}
  {es es' : List Expr} {v : Value}

theorem Simulates.refl (ip : Evaluator) (env : Env) (e : Expr) : Simulates ip ip env env e e :=
  .weaken (.refl ip) fun _ _ _ hw => hw

theorem Simulates.trans (h : Simulates ip ip' env env' e e')
    (h' : Simulates ip' ip'' env' env'' e' e'') : Simulates ip ip'' env env'' e e'' :=
  ⟨fun v hv => h'.value v (h.value v hv), fun vs v hv => h'.callee vs v (h.callee vs v hv)⟩

namespace Refines

theorem refl (ip : Evaluator) (e : Expr) : ip.Refines e e :=
  fun _ => .weaken ip.strictly_loosens fun _ _ _ hw => hw

theorem of_law (h : ∀ env, Simulates ip.strictly ip.strictly env env e e')
    (h' : ip.Refines e' e'') : ip.Refines e e'' :=
  fun env => (h env).trans (h' env)

theorem then_law (h : ip.Refines e e') (h' : ∀ env, Simulates ip ip env env e' e'') :
    ip.Refines e e'' :=
  fun env => (h env).trans (h' env)

theorem lambda (ps : List String) (hb : ip.Refines b b') :
    ip.Refines (.lambda ps b) (.lambda ps b') :=
  fun _ => .lambda rfl fun _ v _ hv => (hb _).value v hv

theorem negatedIf (negated : Bool) (h : ip.Refines e e') :
    ip.Refines (Normal.negatedIf negated e) (Normal.negatedIf negated e') := by
  cases negated with
  | false => exact h
  | true => exact fun env => .unary .not (h env)

/-- A node refines to the node over what its subexpressions refine to. -/
theorem withChildren (h : List.Forall₂ ip.Refines e.children es) :
    ip.Refines e (e.withChildren es) := by
  cases e with
  | var x => exact refl ip _
  | lambda ps b =>
    cases h with | cons hb hnil => cases hnil with | nil =>
    exact lambda ps hb
  | _ =>
    refine fun env => .withChildren ip.strictly_loosens ?_ ?_ (h.imp fun _ _ hc => hc env)
    · intro x hx
      cases hx
    · intro ps b hx
      cases hx

theorem mapChildren {f : Expr → Expr} (h : ∀ c ∈ e.children, ip.Refines c (f c)) :
    ip.Refines e (e.mapChildren f) := by
  rw [← Expr.withChildren_map]
  apply withChildren
  rw [List.forall₂_map_right_iff, List.forall₂_same]
  exact h

end Refines

end Evaluator

namespace Normal

open Evaluator
open Interpreter (applyUnary expectLogical callMethod)

variable {ip : Evaluator} {env : Env} {e e' : Expr}

/-! ### Comparisons -/

theorem compareCall_eval (ht : ip.functions.StandardStrings) {left right : Expr} {x y : Value}
    (hx : ip.eval left env = .ok x) (hy : ip.eval right env = .ok y) (mode : StringComparison) :
    ip.eval (compareCall left right mode) env =
      Builtin.stringCompare none [x, y, mode.toValue] := by
  have hmethod : ip.functions.method? Method.stringCompare.signature = some Builtin.stringCompare :=
    ht.builtin _ (by simp)
  simp [compareCall, eval, evalAll, hx, hy, callMethod, hmethod, bind, Except.bind]

theorem canonicalComparison_eval (ht : ip.functions.StandardStrings) {left right flag : Expr}
    {x y v : Value} {ignoreCase : Bool} (hx : ip.eval left env = .ok x)
    (hy : ip.eval right env = .ok y) (hflag : ip.eval flag env = .ok (.bool ignoreCase))
    (hv : Builtin.stringCompare none [x, y,
      (if ignoreCase then StringComparison.ordinalIgnoreCase else .ordinal).toValue] = .ok v) :
    ip.eval (canonicalComparison left right flag) env = .ok v := by
  unfold canonicalComparison
  split
  · obtain rfl : ignoreCase = true := by simpa [eval, eq_comm] using hflag
    rw [compareCall_eval ht hx hy]
    exact hv
  · obtain rfl : ignoreCase = false := by simpa [eval, eq_comm] using hflag
    rw [compareCall_eval ht hx hy]
    exact hv
  · simp only [eval, hflag, bind, Except.bind]
    cases ignoreCase with
    | true => exact (compareCall_eval ht hx hy _).trans hv
    | false => exact (compareCall_eval ht hx hy _).trans hv

theorem comparisonCall_simulates (ht : ip.functions.StandardStrings) (m : Method)
    (args : List Expr) : Simulates ip ip env env (.staticCall m args) (comparisonCall m args) := by
  unfold comparisonCall
  split
  next left right flag =>
    split
    next hm =>
      refine .of_value (fun v h => ?_) fun _ => rfl
      simp only [eval, evalAll, bind_eq_ok, Except.ok.injEq] at h
      obtain ⟨_, ⟨x, hx, _, ⟨y, hy, _, ⟨w, hw, _, rfl, rfl⟩, rfl⟩, rfl⟩, hv⟩ := h
      have hm : m.signature = Method.compareString.signature := of_decide_eq_true hm
      unfold callMethod at hv
      split at hv
      next f hf =>
        obtain ⟨ignoreCase, rfl, hcompare⟩ := ht.compareString f (hm ▸ hf) x y w v hv
        exact canonicalComparison_eval ht hx hy hw hcompare
      next => cases hv
    next => exact .refl ip env _
  next => exact .refl ip env _

theorem comparisons_refines (ht : ip.functions.StandardStrings) (e : Expr) :
    ip.Refines e (comparisons e) := by
  induction e using Expr.byChildren with
  | step e ih =>
    have hmap := Refines.mapChildren ih
    by_cases hcall : ∃ m args, e = .staticCall m args
    · obtain ⟨m, args, rfl⟩ := hcall
      rw [comparisons, comparisonsAll_eq_map]
      exact hmap.then_law fun env => comparisonCall_simulates ht m _
    · rwa [comparisons_eq_mapChildren fun m args h => hcall ⟨m, args, h⟩]

/-! ### Invocations -/

theorem applyCallee_strip (count : Nat) (args : Except EvalError (List Value)) (c : Expr) :
    ip.applyCallee count args c.strip env = ip.applyCallee count args c env := by
  fun_induction Expr.strip c with
  | case1 _ e ih => rw [ih, applyCallee]
  | case2 e ih => rw [ih, applyCallee]
  | case3 e => rfl

/-- Parameters have the values of their arguments, and other names of what stands for them
outside. -/
theorem lookup_arguments {ps : List String} {args : List Expr} {vs : List Value} {x : String}
    {w : Value} {outer : Env} {default : Expr} (hargs : ip.evalAll args env = .ok vs)
    (hdefault : outer.lookup x = some w → ip.eval default env = .ok w)
    (hw : (Env.extend ps vs outer).lookup x = some w) :
    ip.eval (((ps.zip args).reverse.lookup x).getD default) env = .ok w := by
  induction args generalizing ps vs outer default with
  | nil =>
    obtain rfl := Except.ok.inj hargs
    simpa [Env.extend] using hdefault (by simpa [Env.extend] using hw)
  | cons a args ih =>
    simp only [evalAll, bind_eq_ok, Except.ok.injEq] at hargs
    obtain ⟨v, hv, vs, hvs, rfl⟩ := hargs
    cases ps with
    | nil => simpa [Env.extend] using hdefault (by simpa [Env.extend] using hw)
    | cons p ps =>
      rw [Env.extend_cons] at hw
      rw [List.zip_cons_cons, List.reverse_cons, List.lookup_append, Option.getD_or]
      refine ih hvs (fun hfound => ?_) hw
      by_cases hp : x = p
      · subst hp
        rw [List.lookup_cons_self] at hfound
        rw [List.lookup_cons_self, Option.getD_some, hv, Option.some.inj hfound]
      · have hne : (x == p) = false := beq_eq_false_iff_ne.mpr hp
        rw [List.lookup_cons, hne] at hfound ⊢
        exact hdefault hfound

theorem unfolded?_simulates {c body : Expr} {args : List Expr} (h : unfolded? c args = some body) :
    Simulates ip ip env env (.invoke c args) body := by
  refine .of_value (fun v hv => ?_) fun _ => rfl
  unfold unfolded? at h
  split at h
  next ps b hb =>
    split at h
    next hlen =>
      obtain rfl := Option.some.inj h
      rw [eval, ← applyCallee_strip, hb, applyCallee, if_pos hlen] at hv
      obtain ⟨vs, hvs, hv⟩ := bind_eq_ok.mp hv
      refine (Simulates.substitute fun x _ w hw => ?_).value v hv
      rw [lookup_ofPairs]
      exact lookup_arguments hvs eval_var.mpr hw
    next => cases h
  next => cases h

theorem unfoldWith_refines (again : Expr → Except Error Expr)
    (hagain : ∀ e, Yields OnlyLimit (ip.Refines e) (again e)) (e : Expr) :
    Yields OnlyLimit (ip.Refines e) (unfoldWith again e) := by
  induction e using byUnfolding with
  | unfolded c args body hbody =>
    rw [unfoldWith_of_unfolded again hbody]
    exact (hagain body).mono
      (fun e' he => .of_law (fun env => unfolded?_simulates hbody) he) fun _ h => h
  | kept e hnone ih =>
    rw [unfoldWith_eq_map again hnone]
    exact (unfoldAllWith_yields ih).image fun es hes => .withChildren hes

theorem invocations_refines (limit : Nat) (e : Expr) :
    Yields OnlyLimit (ip.Refines e) (invocations limit e) := by
  induction limit generalizing e with
  | zero => exact unfoldWith_refines (fun _ => .error .limitExceeded) (fun _ => rfl) e
  | succ limit ih => exact unfoldWith_refines (invocations limit) ih e

/-- Where one computation finishes, another finishes with the same result. -/
def Finishes {α : Type} (x y : Except Error α) : Prop := ∀ a, x = .ok a → y = .ok a

theorem Finishes.bind {α β : Type} {x y : Except Error α} {f g : α → Except Error β}
    (h : Finishes x y) (hf : ∀ a, Finishes (f a) (g a)) : Finishes (x >>= f) (y >>= g) := by
  intro b hb
  obtain ⟨a, ha, hb⟩ := bind_eq_ok.mp hb
  exact bind_eq_ok.mpr ⟨a, h a ha, hf a b hb⟩

theorem unfoldAllWith_finishes {again again' : Expr → Except Error Expr} (es : List Expr)
    (h : ∀ e ∈ es, Finishes (unfoldWith again e) (unfoldWith again' e)) :
    Finishes (unfoldAllWith again es) (unfoldAllWith again' es) := by
  induction es with
  | nil => exact fun _ h => h
  | cons e es ih =>
    rw [List.forall_mem_cons] at h
    exact h.1.bind fun e' => (ih h.2).bind fun es' _ h => h

theorem unfoldWith_finishes (again again' : Expr → Except Error Expr)
    (hagain : ∀ e, Finishes (again e) (again' e)) (e : Expr) :
    Finishes (unfoldWith again e) (unfoldWith again' e) := by
  induction e using byUnfolding with
  | unfolded c args body hbody =>
    rw [unfoldWith_of_unfolded again hbody, unfoldWith_of_unfolded again' hbody]
    exact hagain body
  | kept e hnone ih =>
    rw [unfoldWith_eq_map again hnone, unfoldWith_eq_map again' hnone]
    intro e' he'
    obtain ⟨es, hes, rfl⟩ := map_eq_ok.mp he'
    exact map_eq_ok.mpr ⟨es, unfoldAllWith_finishes e.children ih es hes, rfl⟩

/-- Unfolding that ends within a limit ends alike within every larger one. -/
theorem invocations_finishes {limit larger : Nat} (hle : limit ≤ larger) (e : Expr) :
    Finishes (invocations limit e) (invocations larger e) := by
  induction limit generalizing larger e with
  | zero =>
    cases larger with
    | zero => exact fun _ h => h
    | succ larger => exact unfoldWith_finishes (fun _ => .error .limitExceeded) _ (fun _ => nofun) e
  | succ limit ih =>
    obtain ⟨larger, rfl⟩ : ∃ n, larger = n + 1 := ⟨larger - 1, by omega⟩
    exact unfoldWith_finishes _ _ (fun e => ih (Nat.le_of_succ_le_succ hle) e) e

/-! ### String tests -/

theorem isStringTest_iff {m : Method} : isStringTest m = true ↔
    m.signature = Method.stringStartsWith.signature ∨
      m.signature = Method.stringEndsWith.signature := by
  simp only [isStringTest, Method.isFormOf, Bool.or_eq_true, decide_eq_true_eq]

/-- A string test has a truth value, on two strings only, and every string passes it with the empty
string. -/
theorem callMethod_stringTest (ht : ip.functions.StandardStrings) {m : Method}
    (hm : isStringTest m = true) {s w v : Value} (hv : ip.callMethod (some s) m [w] = .ok v) :
    ∃ x y holds, s = .string x ∧ w = .string y ∧ v = .bool holds ∧ (y = "" → holds = true) := by
  have hbuiltin : ∃ name test, ip.functions.method? m.signature =
      some (Builtin.stringTest name test) ∧
      ∀ cs, test [] cs = true := by
    rcases isStringTest_iff.mp hm with hm | hm
    · exact ⟨"StartsWith", List.isPrefixOf, hm ▸ ht.builtin _ (by simp), fun cs => by simp⟩
    · exact ⟨"EndsWith", List.isSuffixOf, hm ▸ ht.builtin _ (by simp),
        fun cs => by simp [List.isSuffixOf]⟩
  obtain ⟨name, test, hmethod, hempty⟩ := hbuiltin
  simp only [callMethod, hmethod, Builtin.stringTest, bind_eq_ok, Except.ok.injEq] at hv
  obtain ⟨x, hx, y, hy, rfl⟩ := hv
  refine ⟨x, y, test y.toList x.toList, ?_, ?_, rfl, ?_⟩
  · cases s <;> simp_all [Builtin.receiver, Builtin.expectString]
  · cases w <;> simp_all [Builtin.expectString]
  · rintro rfl
    exact hempty _

theorem eval_not {v : Value} : ip.eval (.unary .not e) env = .ok v ↔
    ∃ u, ip.eval e env = .ok u ∧ u.logicalNot = .ok v := by
  simp only [eval, bind_eq_ok, applyUnary]

theorem isNull_eq_false {x : Value} (hx : x ≠ .null) : x.isNull = false := by
  cases x with
  | null => exact absurd rfl hx
  | _ => rfl

theorem equals_null (x : Value) : x.equals .null = x.isNull := by
  cases x <;> simp [Value.equals, Value.floatPair?, Value.isNull]

theorem eval_eq_null (e : Expr) :
    ip.eval (.eq e .null) env = (ip.eval e env).map fun x => .bool x.isNull := by
  simp only [Expr.eq, Expr.null, eval]
  cases ip.eval e env with
  | error error => rfl
  | ok x => exact congrArg (fun b => Except.ok (Value.bool b)) (equals_null x)

theorem eval_ne_null (e : Expr) :
    ip.eval (.ne e .null) env = (ip.eval e env).map fun x => .bool !x.isNull := by
  simp only [Expr.ne, Expr.null, eval]
  cases ip.eval e env with
  | error error => rfl
  | ok x => exact congrArg (fun b => Except.ok (Value.bool !b)) (equals_null x)

/-- The truth value of an expression, or a fixed one if the subject or the argument is null. -/
def ifPresent (missing : Bool) (subject argument rest : Expr) : Expr :=
  if missing then .or (.or (.eq subject .null) (.eq argument .null)) rest
  else .and (.and (.ne subject .null) (.ne argument .null)) rest

section

attribute [local simp] ifPresent Expr.and Expr.or eval eval_eq_null eval_ne_null expectLogical
attribute [local simp] bind Except.bind Except.map

/-- The argument is evaluated if the subject is not null, and the rest if neither is. -/
theorem eval_ifPresent (missing : Bool) (subject argument rest : Expr) :
    ip.eval (ifPresent missing subject argument rest) env = (do
      let x ← ip.eval subject env
      if x.isNull then .ok (.bool missing)
      else do
        let y ← ip.eval argument env
        if y.isNull then .ok (.bool missing) else (ip.eval rest env).bind expectLogical) := by
  cases hs : ip.eval subject env with
  | error error => cases missing <;> simp [hs]
  | ok x =>
    cases hx : x.isNull with
    | true => cases missing <;> simp [hs, hx]
    | false =>
      cases ha : ip.eval argument env with
      | error error => cases missing <;> simp [hs, hx, ha]
      | ok y => cases hy : y.isNull <;> cases missing <;> simp [hs, hx, ha, hy]

end

theorem isEmptyString_iff : isEmptyString e = true ↔ e = .constant (.string "") := by
  constructor
  · intro h
    cases e with
    | constant v =>
      cases v with
      | string s => rw [String.isEmpty_iff.mp h]
      | _ => cases h
    | _ => cases h
  · rintro rfl
    rfl

theorem guardedTest_literal (negated : Bool) (subject : Expr) (m : Method) :
    guardedTest negated subject m (.constant (.string "")) = .constant (.bool !negated) := rfl

theorem guardedTest_eq_ifPresent {argument : Expr} (h : argument ≠ .constant (.string ""))
    (negated : Bool) (subject : Expr) (m : Method) :
    guardedTest negated subject m argument =
      ifPresent false subject argument (testTail negated (.call subject m [argument]) argument) :=
  if_neg fun hempty => h (isEmptyString_iff.mp hempty)

theorem testTail_eval {negated holds : Bool} {call argument : Expr} {y : String}
    (hc : ip.eval call env = .ok (.bool holds)) (ha : ip.eval argument env = .ok (.string y))
    (hempty : y = "" → holds = true) :
    ip.eval (testTail negated call argument) env =
      .ok (.bool (if negated then !holds else holds)) := by
  have hequals : (Value.string y).equals (.string "") = decide (y = "") := by
    simp [Value.equals, Value.floatPair?]
  unfold testTail
  split
  · exact hc
  · cases holds with
    | true => simp [Expr.or, eval, hc, bind, Except.bind]
    | false =>
      have hy : y ≠ "" := fun h => Bool.false_ne_true (hempty h)
      simp [Expr.or, Expr.eq, eval, hc, ha, bind, Except.bind, expectLogical, applyBinary,
        Interpreter.applyBinary, hequals, hy]
  · simp [Expr.not, eval, hc, bind, Except.bind, applyUnary, Value.logicalNot]
  · cases holds with
    | true => simp [Expr.and, Expr.not, eval, hc, bind, Except.bind, applyUnary, Value.logicalNot]
    | false =>
      have hy : y ≠ "" := fun h => Bool.false_ne_true (hempty h)
      simp [Expr.and, Expr.not, Expr.ne, eval, hc, ha, bind, Except.bind, applyUnary,
        Value.logicalNot, expectLogical, applyBinary, Interpreter.applyBinary, hequals, hy]

/-- The guarded test on strings is the test itself, or its negation. -/
theorem guardedTest_eval {negated holds : Bool} {subject argument : Expr} {m : Method}
    {x y : String}
    (hs : ip.eval subject env = .ok (.string x)) (ha : ip.eval argument env = .ok (.string y))
    (hv : ip.callMethod (some (.string x)) m [.string y] = .ok (.bool holds))
    (hempty : y = "" → holds = true) :
    ip.eval (guardedTest negated subject m argument) env =
      .ok (.bool (if negated then !holds else holds)) := by
  by_cases hliteral : argument = .constant (.string "")
  · subst hliteral
    obtain rfl : y = "" := by simpa [eval, eq_comm] using ha
    rw [guardedTest_literal, hempty rfl]
    cases negated <;> rfl
  · have hcall : ip.eval (.call subject m [argument]) env = .ok (.bool holds) := by
      simp [eval, evalAll, hs, ha, hv, bind, Except.bind]
    rw [guardedTest_eq_ifPresent hliteral, eval_ifPresent, hs, ha, testTail_eval hcall ha hempty]
    rfl

theorem guardedTest_simulates (ht : ip.functions.StandardStrings) {m : Method}
    (hm : isStringTest m = true) (negated : Bool) (subject argument : Expr) :
    Simulates ip ip env env (negatedIf negated (.call subject m [argument]))
      (guardedTest negated subject m argument) := by
  have hcall : ∀ v, ip.eval (.call subject m [argument]) env = .ok v → ∃ holds, v = .bool holds ∧
      ip.eval (guardedTest negated subject m argument) env =
        .ok (.bool (if negated then !holds else holds)) := by
    intro v h
    simp only [eval, evalAll, bind_eq_ok, Except.ok.injEq] at h
    obtain ⟨s, hs, _, ⟨w, hw, _, rfl, rfl⟩, hv⟩ := h
    obtain ⟨x, y, holds, rfl, rfl, rfl, hempty⟩ := callMethod_stringTest ht hm hv
    exact ⟨holds, rfl, guardedTest_eval hs hw hv hempty⟩
  cases negated with
  | false =>
    refine .of_value (fun v h => ?_) fun _ => rfl
    obtain ⟨holds, rfl, heval⟩ := hcall v h
    exact heval
  | true =>
    refine .of_value (fun v h => ?_) fun _ => rfl
    obtain ⟨u, hu, hv⟩ := eval_not.mp h
    obtain ⟨holds, rfl, heval⟩ := hcall u hu
    exact heval.trans hv

theorem stringTests_refines (ht : ip.functions.StandardStrings) (e : Expr) :
    ip.Refines e (stringTests e) := by
  induction e using Expr.byGrandchildren with
  | step e ih =>
    have hmap : ip.Refines e (e.mapChildren stringTests) :=
      Refines.mapChildren fun c hc => (ih c hc).1
    cases htest : test? e with
    | none => rwa [stringTests_of_none htest]
    | some test =>
      obtain ⟨negated, s, m, a⟩ := test
      obtain ⟨hm, rfl⟩ := eq_of_test? htest
      rw [stringTests_of_test htest]
      -- a negated test is rewritten together with its negation, so its operands refine, not the
      -- test
      have hinner : ip.Refines (.call s m [a]) ((Expr.call s m [a]).mapChildren stringTests) := by
        cases negated with
        | false => exact hmap
        | true => exact Refines.mapChildren (ih (.call s m [a])
            (by simp [negatedIf, Expr.not, Expr.children])).2
      exact (hinner.negatedIf negated).then_law fun env => guardedTest_simulates ht hm negated _ _

/-! ### Negations -/

theorem not_not_simulates (e : Expr) :
    Simulates ip ip env env (.unary .not (.unary .not e)) e := by
  refine .of_value (fun v h => ?_) fun _ => rfl
  obtain ⟨u, hu, hv⟩ := eval_not.mp h
  obtain ⟨w, hw, hu⟩ := eval_not.mp hu
  cases w with
  | bool b =>
    obtain rfl : Value.bool (!b) = u := Except.ok.inj hu
    obtain rfl : Value.bool (!!b) = v := Except.ok.inj hv
    rw [Bool.not_not, hw]
  | null =>
    obtain rfl : Value.null = u := Except.ok.inj hu
    obtain rfl : Value.null = v := Except.ok.inj hv
    exact hw
  | _ => cases hu

/-- The value of the first operand that decides a logical operator. -/
def decisive (op : BinaryOp) : Bool := op == .or

/-- A logical operator takes the value of its first operand, if that decides, and of its second
otherwise. -/
theorem eval_logical {op : BinaryOp} (hop : op.isLogical = true) {l r : Expr} {v : Value} :
    ip.eval (.binary op l r) env = .ok v ↔
      ip.eval l env = .ok (.bool (decisive op)) ∧ v = .bool (decisive op) ∨
      ip.eval l env = .ok (.bool !decisive op) ∧ ∃ y, ip.eval r env = .ok (.bool y) ∧
        v = .bool y := by
  have hsecond : (ip.eval r env).bind expectLogical = .ok v ↔
      ∃ y, ip.eval r env = .ok (.bool y) ∧ v = .bool y := by
    constructor
    · intro h
      obtain ⟨y, hy, hv⟩ := bind_eq_ok.mp h
      cases y with
      | bool b => exact ⟨b, hy, (Except.ok.inj hv).symm⟩
      | _ => cases hv
    · rintro ⟨y, hy, rfl⟩
      exact bind_eq_ok.mpr ⟨_, hy, rfl⟩
  cases op with
  | and | or =>
    simp only [eval, bind_eq_ok]
    constructor
    · rintro ⟨x, hx, h⟩
      split at h
      · exact .inl ⟨hx, (Except.ok.inj h).symm⟩
      · exact .inr ⟨hx, hsecond.mp h⟩
      · cases h
    · rintro (⟨hl, rfl⟩ | ⟨hl, hr⟩)
      · exact ⟨_, hl, rfl⟩
      · exact ⟨_, hl, hsecond.mpr hr⟩
  | _ => cases hop

/-- The second operand of a negated operator is evaluated exactly if that of its inverse is. -/
theorem deMorgan_simulates {op inverse : BinaryOp} (hop : op.isLogical = true)
    (hinv : invert op = .ok inverse) (l r : Expr) :
    Simulates ip ip env env (.unary .not (.binary op l r))
      (.binary inverse (.unary .not l) (.unary .not r)) := by
  refine .of_value (fun v h => ?_) fun _ => rfl
  obtain ⟨u, hu, hv⟩ := eval_not.mp h
  have hinverse : inverse.isLogical = true ∧ decisive inverse = !decisive op := by
    cases op <;> cases hop <;> obtain rfl := Except.ok.inj hinv <;> decide
  rw [eval_logical hinverse.1, hinverse.2, Bool.not_not]
  rcases (eval_logical hop).mp hu with ⟨hl, rfl⟩ | ⟨hl, y, hr, rfl⟩
  · exact .inl ⟨eval_not.mpr ⟨_, hl, rfl⟩, (Except.ok.inj hv).symm⟩
  · refine .inr ⟨eval_not.mpr ⟨_, hl, ?_⟩, !y, eval_not.mpr ⟨_, hr, rfl⟩, (Except.ok.inj hv).symm⟩
    rw [Value.logicalNot, Bool.not_not]

theorem eval_comparison {op : BinaryOp} (hop : op.isComparison = true) {l r : Expr} {v : Value} :
    ip.eval (.binary op l r) env = .ok v ↔ ∃ x, ip.eval l env = .ok x ∧
      ∃ y, ip.eval r env = .ok y ∧ ip.applyBinary op x y = .ok v := by
  cases op <;> cases hop <;> simp only [eval, bind_eq_ok]

/-- The comparisons by an order. -/
def orders : BinaryOp → Bool
  | .gt | .ge | .lt | .le => true
  | _ => false

theorem applyBinary_of_orders {op : BinaryOp} (hop : orders op = true) (x y : Value) :
    ip.applyBinary op x y = ip.compareOrder op x y := by
  cases op with
  | gt | ge | lt | le => rfl
  | _ => cases hop

theorem compareOrder_eq_ok {op : BinaryOp} {x y v : Value} (hx : x ≠ .null) (hy : y ≠ .null) :
    ip.compareOrder op x y = .ok v ↔
      ∃ order, x.compare? y = some order ∧ .bool (Value.orderHolds op order) = v := by
  rw [compareOrder, Interpreter.compareOrder, isNull_eq_false hx, isNull_eq_false hy]
  cases x.compare? y <;> simp

/-- One of two inverse comparisons holds, unless null is ordered. -/
theorem applyBinary_invert {op inverse : BinaryOp} (hop : op.isComparison = true)
    (hinv : invert op = .ok inverse) {x y u v : Value}
    (hnull : orders op = true → x ≠ .null ∧ y ≠ .null)
    (hu : ip.applyBinary op x y = .ok u) (hv : u.logicalNot = .ok v) :
    ip.applyBinary inverse x y = .ok v := by
  cases op with
  | eq | ne =>
    obtain rfl := Except.ok.inj hinv
    obtain rfl := Except.ok.inj hu
    obtain rfl := Except.ok.inj hv
    simp [applyBinary, Interpreter.applyBinary]
  | gt | ge | lt | le =>
    obtain rfl := Except.ok.inj hinv
    obtain ⟨hx, hy⟩ := hnull rfl
    rw [applyBinary_of_orders rfl, compareOrder_eq_ok hx hy] at hu ⊢
    obtain ⟨order, horder, rfl⟩ := hu
    obtain rfl := Except.ok.inj hv
    exact ⟨order, horder, by cases order <;> rfl⟩
  | _ => cases hop

theorem ne_null_of_strict (hs : ip.strict = true) {op : BinaryOp} (hop : orders op = true)
    {x y u : Value} (hu : ip.applyBinary op x y = .ok u) : x ≠ .null ∧ y ≠ .null := by
  rw [applyBinary_of_orders hop, compareOrder, hs] at hu
  constructor
  · rintro rfl
    cases hu
  · rintro rfl
    rw [if_pos (by simp [Value.isNull])] at hu
    cases hu

/-- A negated comparison has the value of the inverse one, unless null is ordered. -/
theorem eval_invert {op inverse : BinaryOp} (hop : op.isComparison = true)
    (hinv : invert op = .ok inverse) {l r : Expr} {v : Value}
    (hnull : ∀ x y u, ip.eval l env = .ok x → ip.eval r env = .ok y →
      ip.applyBinary op x y = .ok u → orders op = true → x ≠ .null ∧ y ≠ .null)
    (h : ip.eval (.unary .not (.binary op l r)) env = .ok v) :
    ip.eval (.binary inverse l r) env = .ok v := by
  obtain ⟨u, hu, hv⟩ := eval_not.mp h
  have hinverse : inverse.isComparison = true := by
    cases op <;> cases hop <;> obtain rfl := Except.ok.inj hinv <;> rfl
  rw [eval_comparison hop] at hu
  obtain ⟨x, hx, y, hy, hu⟩ := hu
  exact (eval_comparison hinverse).mpr
    ⟨x, hx, y, hy, applyBinary_invert hop hinv (hnull x y u hx hy hu) hu hv⟩

/-- Operands that strict evaluation compares are comparable the other way round. -/
theorem not_comparison_simulates (hs : ip.strict = true) {op inverse : BinaryOp}
    (hop : op.isComparison = true) (hinv : invert op = .ok inverse) (l r : Expr) :
    Simulates ip ip env env (.unary .not (.binary op l r)) (.binary inverse l r) :=
  .of_value (fun _ => eval_invert hop hinv fun _ _ _ _ _ hu ho => ne_null_of_strict hs ho hu)
    fun _ => rfl

theorem exists_invert {op : BinaryOp} (h : op.isLogical = true ∨ op.isComparison = true) :
    ∃ inverse, invert op = .ok inverse := by
  cases op <;> simp_all [invert, BinaryOp.invert?, BinaryOp.isLogical, BinaryOp.isComparison]

/-- A negated constant is a truth value that is turned over, or it stays negated. -/
theorem negations_constant_refines (v : Value) (negated : Bool) :
    Yields OnlyLimit (ip.Refines (negatedIf negated (.constant v)))
      (negations (.constant v) negated) := by
  cases negated with
  | false => cases v <;> exact .refl ip _
  | true =>
    cases v with
    | bool b =>
      refine fun env => .of_value (fun v h => ?_) fun _ => rfl
      obtain ⟨u, hu, hv⟩ := eval_not.mp h
      obtain rfl : .bool b = u := by simpa [eval] using hu
      exact hv
    | _ => exact .refl ip _

/-- A negated binary node is inverted, over negated operands or not, or it stays negated. -/
theorem negations_binary_refines (op : BinaryOp) (negated : Bool)
    (hl : ∀ inner, Yields OnlyLimit (ip.Refines (negatedIf inner l)) (negations l inner))
    (hr : ∀ inner, Yields OnlyLimit (ip.Refines (negatedIf inner r)) (negations r inner)) :
    Yields OnlyLimit (ip.Refines (negatedIf negated (.binary op l r)))
      (negations (.binary op l r) negated) := by
  have hip := ip.strictly_loosens
  simp only [negations]
  split
  next hop =>
    obtain ⟨rfl, hop⟩ := Bool.and_eq_true_iff.mp hop
    obtain ⟨inverse, hinv⟩ := exists_invert (.inl hop)
    rw [hinv]
    refine (hl true).bind fun l' hl => (hr true).bind fun r' hr => ?_
    exact .of_law (fun env => deMorgan_simulates hop hinv l r) fun env =>
      .binary hip inverse (hl env) (hr env)
  next =>
    split
    next hop =>
      obtain ⟨rfl, hop⟩ := Bool.and_eq_true_iff.mp hop
      obtain ⟨inverse, hinv⟩ := exists_invert (.inr hop)
      rw [hinv]
      refine (hl false).bind fun l' hl => (hr false).bind fun r' hr => ?_
      exact .of_law (fun env => not_comparison_simulates rfl hop hinv l r) fun env =>
        .binary hip inverse (hl env) (hr env)
    next =>
      refine (hl false).bind fun l' hl => (hr false).bind fun r' hr => ?_
      exact Refines.negatedIf negated fun env => .binary hip op (hl env) (hr env)

theorem negations_refines (e : Expr) (negated : Bool) :
    Yields OnlyLimit (ip.Refines (negatedIf negated e)) (negations e negated) := by
  induction e using byNegations generalizing negated with
  | constant v => exact negations_constant_refines v negated
  | negation d ih =>
    rw [negations]
    cases negated with
    | false => exact ih true
    | true =>
      exact (ih false).mono (fun d' h => .of_law (fun env => not_not_simulates d) h) fun _ h => h
  | binary op l r ihl ihr => exact negations_binary_refines op negated ihl ihr
  | inert e hinert ih =>
    rw [hinert.negations_eq_map]
    refine (negationsAll_yields fun c hc => ih c hc false).image fun es hes => ?_
    exact (Refines.withChildren hes).negatedIf negated

end Normal

namespace Pass

open Interpreter

theorem normalize_refines {ip : Evaluator} (ht : ip.functions.StandardStrings) (limit : Nat)
    (e : Expr) : Yields OnlyLimit (ip.Refines e) ((normalize limit).run e) := by
  have ht' : ip.strictly.functions.StandardStrings := ht
  have hcomparisons : Yields OnlyLimit (ip.strictly.Refines e) (comparisons.run e) :=
    Normal.comparisons_refines ht' e
  refine hcomparisons.bind fun e₁ h₁ => ?_
  have hinvocations : Yields OnlyLimit (ip.strictly.Refines e₁) ((invocations limit).run e₁) :=
    Normal.invocations_refines limit e₁
  refine hinvocations.bind fun e₂ h₂ => ?_
  have htests : Yields OnlyLimit (ip.strictly.Refines e₂) (stringTests.run e₂) :=
    Normal.stringTests_refines ht' e₂
  refine htests.bind fun e₃ h₃ => ?_
  have hnegations : Yields OnlyLimit (ip.Refines e₃) (negations.run e₃) :=
    Normal.negations_refines e₃ false
  refine hnegations.bind fun e₄ h₄ => ?_
  exact .of_law h₁ (.of_law h₂ (.of_law h₃ h₄))

theorem normalize_finishes {limit larger : Nat} (hle : limit ≤ larger) (e : Expr) :
    Normal.Finishes ((normalize limit).run e) ((normalize larger).run e) :=
  (Normal.invocations_finishes hle (Normal.comparisons e)).bind fun _ _ h => h

/-- The normal form keeps meaning: an expression whose unfolding ends within a limit has one normal
form within that limit and all larger ones, and the value that the expression has under strict
evaluation is the value of the normal form. -/
theorem normalize_preserves_value (ip : Interpreter) (ht : ip.functions.StandardStrings)
    (limit : Nat) (e : Expr) (hlimit : (normalize limit).run e ≠ .error .limitExceeded) (env : Env)
    (v : Value) (hv : ip.strictly.eval e env = .ok v) :
    ∃ e', (∀ larger, limit ≤ larger → (normalize larger).run e = .ok e') ∧
      ip.eval e' env = .ok v := by
  have hrefines := @normalize_refines ip.plain ht limit e
  cases hrun : (normalize limit).run e with
  | error error =>
    rw [hrun] at hrefines hlimit
    exact absurd (congrArg Except.error hrefines) hlimit
  | ok e' =>
    rw [hrun] at hrefines
    refine ⟨e', fun larger hle => normalize_finishes hle e e' hrun, ?_⟩
    rw [← eval_plain]
    exact (hrefines env).value v hv

/-- A comparison with a flag for ignoring case. -/
def flaggedCompare : ClientMethod := fun _ args =>
  match args with
  | [x, y, .bool ignoreCase] =>
    Builtin.stringCompare none [x, y,
      (if ignoreCase then StringComparison.ordinalIgnoreCase else .ordinal).toValue]
  | _ => .error .compareArguments

/-- The built-in functions and the comparison of the other front end. -/
def flaggedTable (ambient : Ambient) : FunctionTable :=
  (FunctionTable.builtin ambient).withMethod Method.compareString.signature flaggedCompare

theorem flaggedTable_standardStrings (ambient : Ambient) :
    (flaggedTable ambient).StandardStrings where
  builtin := by
    intro s hs
    simp only [List.mem_cons, List.not_mem_nil, or_false] at hs
    rcases hs with rfl | rfl | rfl <;> rfl
  compareString := by
    intro f hf x y flag v hv
    have hmethod : (flaggedTable ambient).method? Method.compareString.signature =
      some flaggedCompare := rfl
    obtain rfl := Option.some.inj (hmethod.symm.trans hf)
    cases flag with
    | bool ignoreCase => exact ⟨ignoreCase, rfl, hv⟩
    | _ => cases hv

/-- An invoked lambda whose body negates a string test and an order comparison. -/
def neitherPrefixNorLater : Expr :=
  .invoke (.lambda ["x"] (.not (.or (.call (.var "x") .stringStartsWith [.var "y"])
    (.binary .gt (.staticCall .compareString [.var "x", .var "y", .var "flag"])
      (.constant (.int 0)))))) [.constant (.string "b")]

theorem normalize_preserves_value_invoked :
    ∃ e', (∀ larger, 4 ≤ larger → (normalize larger).run neitherPrefixNorLater = .ok e') ∧
      (ofFunctions (flaggedTable ⟨⟨0, 0⟩, fun _ => .empty⟩)).eval e'
        [("y", .string "c"), ("flag", .bool false)] = .ok (.bool true) := by
  have hok : ((normalize 4).run neitherPrefixNorLater).isOk = true := by decide +kernel
  apply normalize_preserves_value _ (flaggedTable_standardStrings _)
  · intro h
    rw [h] at hok
    contradiction
  · rfl

end Pass

end QueryTree
