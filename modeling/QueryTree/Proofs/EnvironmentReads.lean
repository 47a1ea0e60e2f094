import QueryTree.Proofs.ExactFolding

/-! What an evaluation reads of its environment: for each free variable of the expression the
innermost binding, and nothing else. Fresh identifiers make no difference, since the expressions
that take the place of the calls for them have the same free variables. -/

namespace QueryTree

namespace FunctionTable

section Draws

variable {α β : Type} (m : StateM Nat α) (f : α → StateM Nat β) (a : α) (n : Nat)

theorem run_bind : (m >>= f).run n = (f (m.run n).1).run (m.run n).2 := rfl

theorem run_pure : (pure a : StateM Nat α).run n = (a, n) := rfl

end Draws

variable {t : FunctionTable} {e : Expr} {es : List Expr}

theorem freeVars_take (supply : Nat → Uuid) (operands : List Expr) (n : Nat) :
    ((take supply operands).run n).1.freeVars = Expr.freeVarsOf operands := rfl

theorem freeVarsOf_drawingAll (h : ∀ e ∈ es, ∀ n, ((t.drawing e).run n).1.freeVars = e.freeVars)
    (n : Nat) : Expr.freeVarsOf ((t.drawingAll es).run n).1 = Expr.freeVarsOf es := by
  induction es generalizing n with
  | nil => rfl
  | cons e es ih =>
    rw [List.forall_mem_cons] at h
    simp only [drawingAll, run_bind, run_pure, Expr.freeVarsOf, h.1, ih h.2]

theorem freeVars_drawing (e : Expr) (n : Nat) : ((t.drawing e).run n).1.freeVars = e.freeVars := by
  induction e using Expr.byChildren generalizing n with
  | step e ih =>
    cases e with
    | call target m args =>
      rw [Expr.children, List.forall_mem_cons] at ih
      have hargs := freeVarsOf_drawingAll ih.2
      simp only [drawing, run_bind]
      cases t.supply? m.signature with
      | some supply => simp only [freeVars_take, Expr.freeVars, Expr.freeVarsOf, ih.1, hargs]
      | none => simp only [run_pure, Expr.freeVars, ih.1, hargs]
    | staticCall m args =>
      have hargs : ∀ n, Expr.freeVarsOf ((t.drawingAll args).run n).1 = Expr.freeVarsOf args :=
        freeVarsOf_drawingAll ih
      simp only [drawing, run_bind]
      cases t.supply? m.signature with
      | some supply => simp only [freeVars_take, Expr.freeVars, hargs]
      | none => simp only [run_pure, Expr.freeVars, hargs]
    | invoke c args =>
      rw [Expr.children, List.forall_mem_cons] at ih
      simp only [drawing, run_bind, run_pure, Expr.freeVars, ih.1, freeVarsOf_drawingAll ih.2]
    | member target m | unary op target | lambda ps target =>
      have htarget := ih target (by simp [Expr.children])
      simp only [drawing, run_bind, run_pure, Expr.freeVars, htarget]
    | binary op l r =>
      have hl := ih l (by simp [Expr.children])
      have hr := ih r (by simp [Expr.children])
      simp only [drawing, run_bind, run_pure, Expr.freeVars, hl, hr]
    | conditional c a b =>
      have hc := ih c (by simp [Expr.children])
      have ha := ih a (by simp [Expr.children])
      have hb := ih b (by simp [Expr.children])
      simp only [drawing, run_bind, run_pure, Expr.freeVars, hc, ha, hb]
    | _ => rfl

theorem freeVars_draw (t : FunctionTable) (e : Expr) : (t.draw e).freeVars = e.freeVars :=
  freeVars_drawing e 0

end FunctionTable

namespace Interpreter

/-- In two environments with the same innermost binding, if any, for each free variable of an
expression, the expression has the same value or the same error, with and without results for its
calls for fresh identifiers. So what a policy lets compute early evaluates everywhere as it does
without variables. -/
theorem eval_reads_freeVars (ip : Interpreter) (e : Expr) :
    (∀ env env' : Env, (∀ x ∈ e.freeVars, env.lookup x = env'.lookup x) →
      ip.eval e env = ip.eval e env' ∧
      ip.eval (ip.functions.draw e) env = ip.eval (ip.functions.draw e) env') ∧
    ∀ p : Policy, p.allowsAll e = true → ∀ env : Env,
      ip.eval e env = ip.eval e [] ∧ ip.eval (ip.functions.draw e) env = ip.evaluate e := by
  have hreads : ∀ env env' : Env, (∀ x ∈ e.freeVars, env.lookup x = env'.lookup x) →
      ip.eval e env = ip.eval e env' ∧
      ip.eval (ip.functions.draw e) env = ip.eval (ip.functions.draw e) env' := by
    intro env env' h
    refine ⟨(Agrees.of_freeVars h).value, (Agrees.of_freeVars ?_).value⟩
    rwa [FunctionTable.freeVars_draw]
  refine ⟨hreads, fun p hp env => hreads env [] ?_⟩
  rw [Policy.freeVars_of_allowsAll hp]
  exact List.forall_mem_nil _

/-- Two parameters of one name, and a variable that the lambda does not bind. -/
def shadowedSum : Expr :=
  .invoke (.lambda ["x", "y", "x"]
      (.binary .add (.binary .mul (.var "x") (.var "y")) (.var "z")))
    [.var "y", .constant (.int 2), .binary .add (.var "z") (.constant (.int 1))]

/-- A field of a captured record, twice. -/
def doubledSize : Expr :=
  .binary .mul (.constant (.int 2))
    (.member (.constant (.record "Page" [("size", .int 7)])) ⟨"Page", "size"⟩)

theorem eval_reads_freeVars_shadowedSum :
    (ofFunctions .empty).eval shadowedSum [("z", .int 4), ("x", .int 9), ("y", .int 0)] =
      (ofFunctions .empty).eval shadowedSum [("y", .int 0), ("z", .int 4), ("z", .int 5)] ∧
    (ofFunctions .empty).eval doubledSize [("size", .int 1)] =
      (ofFunctions .empty).eval doubledSize [] := by
  constructor
  · exact ((eval_reads_freeVars (ofFunctions .empty) shadowedSum).1 _ _ (by decide)).1
  · exact ((eval_reads_freeVars (ofFunctions .empty) doubledSize).2 .standard
      (by decide +kernel) _).1

end Interpreter

end QueryTree
