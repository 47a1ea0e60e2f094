import QueryTree.Proofs.Agreement
import QueryTree.Proofs.FreeVariables

/-! Two laws of substitution, for all trees and all replacements at once. The free variables of the
result are those that are not replaced and those of the replacements that take effect; and where the
replacements have values, the result evaluates as the expression does with these values for the
variables. -/

namespace QueryTree

namespace Expr

variable {e : Expr} {bindings : Bindings} {x y : String}

theorem mem_freeVars_substitute (hy : y ∈ e.freeVars)
    (hx : x ∈ ((bindings.lookup y).getD (.var y)).freeVars) :
    x ∈ (e.substitute bindings).freeVars := by
  induction e using byScopes generalizing bindings with
  | var z =>
    obtain rfl : y = z := by simpa [freeVars] using hy
    exact hx
  | lambda ps b ih =>
    obtain ⟨renamed, inner, heq, hren⟩ := substitute_lambda ps b bindings
    obtain ⟨hbody, hps⟩ := List.mem_filter.mp hy
    have hps : y ∉ ps := by simpa using hps
    have hinner : x ∈ (b.substitute inner).freeVars :=
      ih hbody (by rwa [hren.outer y hps])
    rw [heq]
    exact List.mem_filter.mpr ⟨hinner, by simpa using hren.fresh y hbody hps x hx⟩
  | node e hvar hlambda ih =>
    rcases mem_freeVars_iff.mp hy with hy | ⟨_, c, hc, hyc⟩
    · exact absurd hy (hvar y)
    rw [substitute_eq_mapChildren hvar hlambda]
    refine freeVars_of_child ?_ ?_ (ih c hc hyc hx)
    · intro ps b hb
      cases e <;> simp_all [mapChildren]
    · rw [children_mapChildren]
      exact List.mem_map_of_mem hc

/-- The free variables after a substitution are the free variables that it leaves, and those of the
replacements for free variables. -/
theorem mem_freeVars_substitute_iff (e : Expr) (bindings : Bindings) (x : String) :
    x ∈ (e.substitute bindings).freeVars ↔
      x ∈ e.freeVars ∧ bindings.lookup x = none ∨
        ∃ y r, bindings.lookup y = some r ∧ y ∈ e.freeVars ∧ x ∈ r.freeVars := by
  constructor
  · intro hx
    obtain ⟨y, hy, hxy⟩ := exists_of_mem_freeVars_substitute hx
    cases hl : bindings.lookup y with
    | none =>
      obtain rfl : x = y := by simpa [hl, freeVars] using hxy
      exact .inl ⟨hy, hl⟩
    | some r => exact .inr ⟨y, r, hl, hy, by simpa [hl] using hxy⟩
  · rintro (⟨hx, hl⟩ | ⟨y, r, hl, hy, hx⟩)
    · exact mem_freeVars_substitute hx (by simp [hl, freeVars])
    · exact mem_freeVars_substitute hy (by simpa [hl] using hx)

end Expr

namespace Interpreter

variable {ip : Interpreter} {bindings : Bindings} {env env' : Env} {e : Expr}

/-- Replacements that agree with the free variables make expressions that agree. -/
theorem Agrees.substitute
    (h : ∀ x ∈ e.freeVars, Agrees ip env env' (.var x) ((bindings.lookup x).getD (.var x))) :
    Agrees ip env env' e (e.substitute bindings) := by
  induction e using Expr.byScopes generalizing env env' bindings with
  | var x => exact h x (by simp [Expr.freeVars])
  | lambda ps b ih =>
    obtain ⟨renamed, inner, heq, hren⟩ := Expr.substitute_lambda ps b bindings
    rw [heq]
    refine lambda hren.length fun vs hlen => (ih fun x hx => ?_).value
    by_cases hps : x ∈ ps
    · obtain ⟨y, _, hvar, hlookup⟩ := hren.lookup_extend hps
      obtain ⟨w, hw, hw'⟩ := hlookup vs env env' hlen
      rw [hvar]
      exact of_value (eval_var.mpr hw) (eval_var.mpr hw')
    · -- outside the lambda the two agree already, and neither reads a parameter
      rw [hren.outer x hps]
      have hleft : Agrees ip (Env.extend ps vs env) env (.var x) (.var x) :=
        var (Env.lookup_extend_of_not_mem hps)
      have hright : Agrees ip env' (Env.extend renamed vs env')
          ((bindings.lookup x).getD (.var x)) ((bindings.lookup x).getD (.var x)) :=
        of_freeVars fun y hy => (Env.lookup_extend_of_not_mem (hren.fresh x hx hps y hy)).symm
      exact (hleft.trans (h x (by simp [Expr.freeVars, hx, hps]))).trans hright
  | node e hvar hlambda ih =>
    rw [Expr.substitute_eq_mapChildren hvar hlambda]
    exact mapChildren hvar hlambda fun c hc =>
      ih c hc fun x hx => h x (Expr.freeVars_of_child hlambda hc hx)

/-- The substitution lemma: where every replacement has a value, the result of a substitution
evaluates, to a value or to an error, as the expression does with the values for the variables. -/
theorem eval_substitute (ip : Interpreter) (env : Env) (bindings : Bindings)
    (value : String → Value)
    (h : ∀ x r, bindings.lookup x = some r → ip.eval r env = .ok (value x)) (e : Expr) :
    ip.eval (e.substitute bindings) env =
      ip.eval e (bindings.map (fun p => (p.1, value p.1)) ++ env) := by
  refine (Agrees.substitute fun x _ => ?_).value.symm
  have hlookup := lookup_map (fun x _ => value x) bindings x
  cases hl : bindings.lookup x with
  | none =>
    rw [hl, Option.map_none] at hlookup
    exact .var (by rw [List.lookup_append, hlookup, Option.none_or])
  | some r =>
    rw [hl, Option.map_some] at hlookup
    refine .of_value (eval_var.mpr ?_) (h x r hl)
    rw [List.lookup_append, hlookup, Option.some_or]

/-- A difference whose lambda binds `y` twice. -/
def twiceBound : Expr :=
  .invoke (.lambda ["y", "y"] (.binary .sub (.var "x") (.var "y")))
    [.constant (.int 1), .constant (.int 2)]

/-- The replacement of `x` reads `y`, which the lambda binds, and `y_1`, the first new name for
it. -/
theorem eval_substitute_twiceBound :
    (ofFunctions .empty).eval
        (twiceBound.substitute [("x", .binary .add (.var "y") (.var "y_1"))])
        [("y", .int 5), ("y_1", .int 7)] =
        (ofFunctions .empty).eval twiceBound [("x", .int 12), ("y", .int 5), ("y_1", .int 7)] ∧
      (ofFunctions .empty).eval twiceBound [("x", .int 12), ("y", .int 5), ("y_1", .int 7)] =
        .ok (.int 10) := by
  refine ⟨eval_substitute _ _ _ (fun _ => .int 12) ?_ _, rfl⟩
  intro x r hr
  rw [List.lookup_cons] at hr
  split at hr
  · obtain rfl := Option.some.inj hr
    rfl
  · cases hr

end Interpreter

end QueryTree
