import QueryTree.Proofs.Agreement
import QueryTree.Proofs.ContextAccess
import QueryTree.Proofs.FreeVariables

/-! Folding is exact. What is replaced by its value reads neither variables nor the session, so it
has that value wherever it stands, and it is no lambda that could be invoked there. All else is
kept, and what fails is left to fail. -/

namespace QueryTree

theorem Policy.freeVars_of_allowsAll {p : Policy} {e : Expr} (h : p.allowsAll e = true) :
    e.freeVars = [] := by
  have hall : e.All fun n => p.allows n = true := List.all_eq_true.mp h
  have hscope : e.Throughout Expr.InScope [] := by
    refine (Expr.throughout_iff_all.mpr hall).mono fun scope n hn x hx => ?_
    rw [hx] at hn
    cases hn
  exact List.eq_nil_of_subset_nil (Expr.throughout_inScope_iff.mp hscope)

namespace Folder

open Interpreter

variable {f : Folder} {e : Expr} {v : Value} {session : Option Value} {env : Env}

theorem usesContext_of_foldable (h : f.isFoldable e = true) : e.usesContext = false := by
  simp only [isFoldable, Bool.and_eq_true, Bool.not_eq_true', List.any_eq_false] at h
  rw [Expr.usesContext, List.any_eq_false]
  intro n hn hcontext
  cases n with
  | context => exact h.2 _ hn rfl
  | _ => cases hcontext

/-- An expression that is replaced has its value in every session and every environment. -/
theorem eval_of_value (hdraw : f.interpreter.functions.draw e = e) (h : f.value? e = some v) :
    (f.interpreter.inSession session).eval e env = .ok v := by
  obtain ⟨hfoldable, hvalue⟩ := value?_eq_some.mp h
  have hallows : f.policy.allowsAll e = true := by
    simp only [isFoldable, Bool.and_eq_true] at hfoldable
    exact hfoldable.1.2
  have hfree := Policy.freeVars_of_allowsAll hallows
  calc (f.interpreter.inSession session).eval e env
    _ = f.interpreter.eval e env :=
      Extractor.eval_inSession hallows (usesContext_of_foldable hfoldable)
    _ = f.interpreter.eval e [] := (Agrees.of_freeVars (by simp [hfree])).value
    _ = f.interpreter.evaluate e := congrArg (fun t => f.interpreter.eval t []) hdraw.symm
    _ = .ok v := hvalue

/-- Folding replaces expressions by constants that agree with them, and keeps all other nodes. What
is replaced must not draw fresh identifiers. -/
theorem agrees_fold_of_drawn
    (hdraw : ∀ n ∈ e.nodes, f.isFoldable n = true → f.interpreter.functions.draw n = n) :
    Agrees (f.interpreter.inSession session) env env e (f.fold e) := by
  induction e using Expr.byScopes generalizing env with
  | var x => exact .var rfl
  | lambda ps b ih =>
    exact .lambda rfl fun vs _ => (ih fun n hn => hdraw n (by simp [Expr.nodes, hn])).value
  | node e hvar hlambda ih =>
    cases hvalue : f.value? e with
    | some v =>
      have hself := hdraw e e.mem_nodes_self (value?_eq_some.mp hvalue).1
      rw [fold_of_value f hvalue]
      exact .of_value (eval_of_value hself hvalue) rfl
    | none =>
      rw [fold_eq_mapChildren f hvalue]
      exact .mapChildren hvar hlambda fun c hc =>
        ih c hc fun n hn => hdraw n (Expr.mem_nodes_of_child hc hn)

theorem agrees_fold (hpure : ∀ s, f.interpreter.functions.supply? s = none) (e : Expr) :
    Agrees (f.interpreter.inSession session) env env e (f.fold e) :=
  agrees_fold_of_drawn fun _ _ _ =>
    FunctionTable.draw_eq_self fun n _ => FunctionTable.supplies_eq_false hpure n

/-- Folding always succeeds, and what it makes of an expression has the same value or the same error
in every session and every environment, whatever session the folding takes place in. -/
theorem eval_foldConstants (f : Folder) (hpure : ∀ s, f.interpreter.functions.supply? s = none)
    (session : Option Value) (env : Env) (e : Expr) :
    ∃ e', (Pass.foldConstants f).run e = .ok e' ∧
      (f.interpreter.inSession session).eval e' env =
        (f.interpreter.inSession session).eval e env :=
  ⟨f.fold e, rfl, (agrees_fold hpure e).value.symm⟩

/-- A folder that knows absolute values and leaves zeros alone. -/
def magnitudes : Folder where
  policy := Policy.empty.excludeWhen fun n => decide (n = .constant (.int 0))
  interpreter := .ofFunctions (FunctionTable.empty.withMethod ⟨Owner.math, "Abs", 1⟩ Builtin.abs)

/-- A test against a magnitude, and then a division that fails. -/
def failingQuotient : Expr :=
  .invoke (.lambda ["x"] (.and
    (.binary .gt (.var "x") (.staticCall (.ofParts Owner.math "Abs" 1) [.constant (.int (-7))]))
    (.eq (.binary .div (.constant (.int 1)) (.constant (.int 0))) (.var "x")))) [.var "y"]

theorem eval_foldConstants_failingQuotient :
    ∃ e', (Pass.foldConstants magnitudes).run failingQuotient = .ok e' ∧
      (magnitudes.interpreter.inSession none).eval e' [("y", .int 50)] =
        .error .divisionByZero := by
  have hpure : ∀ s, magnitudes.interpreter.functions.supply? s = none := by
    intro s
    by_cases hs : s = ⟨Owner.math, "Abs", 1⟩
    · rw [hs]
      rfl
    · have hmethods : magnitudes.interpreter.functions.methods =
          [(⟨Owner.math, "Abs", 1⟩, .computed Builtin.abs)] := rfl
      rw [FunctionTable.supply?, hmethods, List.lookup_cons, beq_eq_false_iff_ne.mpr hs]
      rfl
  exact eval_foldConstants magnitudes hpure none [("y", .int 50)] failingQuotient

example : magnitudes.fold failingQuotient =
    .invoke (.lambda ["x"] (.and (.binary .gt (.var "x") (.constant (.int 7)))
      (.eq (.binary .div (.constant (.int 1)) (.constant (.int 0))) (.var "x")))) [.var "y"] := by
  decide

end Folder

end QueryTree
