import QueryTree.Eval.Interpreter
import QueryTree.Proofs.Nodes

/-! Calls for fresh identifiers. Each of them has a value of its own, so that an expression with
such calls may have another value wherever it stands; without them it is evaluated as it is. -/

namespace QueryTree

namespace FunctionTable

/-- A call that yields a fresh identifier. -/
def supplies (t : FunctionTable) : Expr → Bool
  | .call _ m _ | .staticCall m _ => (t.supply? m.signature).isSome
  | _ => false

variable {t : FunctionTable} {e : Expr} {es : List Expr}

theorem drawingAll_eq_pure (h : ∀ e ∈ es, t.drawing e = pure e) : t.drawingAll es = pure es := by
  induction es with
  | nil => simp [drawingAll]
  | cons e es ih =>
    rw [List.forall_mem_cons] at h
    simp [drawingAll, h.1, ih h.2]

theorem drawing_eq_pure (h : e.All fun n => t.supplies n = false) : t.drawing e = pure e := by
  induction e using Expr.byChildren with
  | step e ih =>
    have hchild : ∀ c ∈ e.children, t.drawing c = pure c := fun c hc => ih c hc (h.child hc)
    have hnode : t.supplies e = false := h.node
    cases e with
    | call target m args =>
      rw [Expr.children, List.forall_mem_cons] at hchild
      simp only [supplies, Option.isSome_eq_false_iff, Option.isNone_iff_eq_none] at hnode
      simp [drawing, hchild.1, drawingAll_eq_pure hchild.2, hnode]
    | staticCall m args =>
      have hargs : t.drawingAll args = pure args := drawingAll_eq_pure hchild
      simp only [supplies, Option.isSome_eq_false_iff, Option.isNone_iff_eq_none] at hnode
      simp [drawing, hargs, hnode]
    | invoke c args =>
      rw [Expr.children, List.forall_mem_cons] at hchild
      simp [drawing, hchild.1, drawingAll_eq_pure hchild.2]
    | _ => simp_all [drawing, Expr.children]

theorem draw_eq_self (h : e.All fun n => t.supplies n = false) : t.draw e = e := by
  rw [draw, drawing_eq_pure h]
  rfl

theorem supplies_eq_false (h : ∀ s, t.supply? s = none) (e : Expr) : t.supplies e = false := by
  cases e <;> simp [supplies, h]

end FunctionTable

namespace Interpreter

/-- Evaluation in an environment, with a result of its own for every call for a fresh identifier. -/
def evaluateIn (ip : Interpreter) (e : Expr) (env : Env) : Except EvalError Value :=
  ip.eval (ip.functions.draw e) env

theorem evaluateIn_eq_eval {ip : Interpreter} {e : Expr}
    (h : e.All fun n => ip.functions.supplies n = false) (env : Env) :
    ip.evaluateIn e env = ip.eval e env := by
  rw [evaluateIn, FunctionTable.draw_eq_self h]

end Interpreter

/-- Whether the text of a fresh identifier has the digit `d`. -/
def Expr.drawsDigit : Expr :=
  .call (.staticCall (.ofParts Owner.string "Concat" 2) [.staticCall .newGuid []])
    (.ofParts Owner.string "Contains" 1) [.constant (.string "d")]

/-- Surroundings in which the first identifier has the digit and no other one. -/
def Ambient.digitFirst : Ambient where
  now := ⟨0, 0⟩
  fresh n := ⟨if n = 0 then 0x0000d000000040008000000000000000 else
    0x00000000000040008000000000000000⟩

end QueryTree
