import QueryTree.Proofs.ExactFolding
import QueryTree.Proofs.FreshIdentifiers

/-! Folding is complete. The pass goes through an expression once, from the root down: an expression
that fails stays, and its subexpressions are folded on their own. That makes no expression around
them foldable that was not, and none succeed that failed. So all that is left to fold fails, and a
second pass changes nothing. -/

namespace QueryTree

theorem Policy.allows_mapChildren {p : Policy} (h : p.predicates = [])
    (g : Expr → Expr) (e : Expr) :
    p.allows (e.mapChildren g) = p.allows e := by
  cases e <;> simp [allows, excludes, lists, Expr.mapChildren, h]

namespace Folder

open Interpreter

variable {f : Folder} {e s : Expr}

/-! ### Foldable expressions -/

/-- A node that may be computed and reads nothing from outside. -/
def Fit (f : Folder) (n : Expr) : Prop := f.policy.allows n = true ∧ readsOutside n = false

theorem isFoldable_iff : f.isFoldable e = true ↔ e.isConstant = false ∧ e.All f.Fit := by
  simp only [isFoldable, Policy.allowsAll, Bool.and_eq_true, Bool.not_eq_true', List.all_eq_true,
    List.any_eq_false, Bool.not_eq_true, and_assoc, Expr.All, Fit]
  exact and_congr_right fun _ =>
    ⟨fun h n hn => ⟨h.1 n hn, h.2 n hn⟩, fun h => ⟨fun n hn => (h n hn).1, fun n hn => (h n hn).2⟩⟩

theorem exists_of_mem_fold (hs : s ∈ (f.fold e).nodes) : ∃ n ∈ e.nodes, s = f.fold n := by
  induction e using Expr.byChildren with
  | step e ih =>
    cases hvalue : f.value? e with
    | some v =>
      have hconstant := fold_of_value f hvalue
      rw [hconstant] at hs
      exact ⟨e, e.mem_nodes_self, (List.mem_singleton.mp hs).trans hconstant.symm⟩
    | none =>
      have hmap := fold_eq_mapChildren f hvalue
      rw [hmap, Expr.mem_nodes_iff, Expr.children_mapChildren] at hs
      rcases hs with rfl | ⟨_, hmem, hs⟩
      · exact ⟨e, e.mem_nodes_self, hmap.symm⟩
      · obtain ⟨c, hc, rfl⟩ := List.mem_map.mp hmem
        obtain ⟨n, hn, rfl⟩ := ih c hc hs
        exact ⟨n, Expr.mem_nodes_of_child hc hn, rfl⟩

/-- The policy keeps every call for a fresh identifier in the query. -/
def KeepsFresh (f : Folder) (e : Expr) : Prop :=
  ∀ n ∈ e.nodes, f.interpreter.functions.supplies n = true → f.policy.allows n = false

instance (f : Folder) (e : Expr) : Decidable (f.KeepsFresh e) :=
  inferInstanceAs (Decidable (∀ n ∈ e.nodes, _ → _))

theorem KeepsFresh.node (h : f.KeepsFresh e) (hs : s ∈ e.nodes) : f.KeepsFresh s :=
  fun n hn => h n (Expr.mem_nodes_trans hn hs)

theorem KeepsFresh.fold (h : f.KeepsFresh e) (hpredicates : f.policy.predicates = []) :
    f.KeepsFresh (f.fold e) := by
  intro s hs hsupplies
  obtain ⟨n, hn, rfl⟩ := exists_of_mem_fold hs
  cases hvalue : f.value? n with
  | some v =>
    rw [fold_of_value f hvalue] at hsupplies
    cases hsupplies
  | none =>
    rw [fold_eq_mapChildren f hvalue] at hsupplies ⊢
    have hsame : f.interpreter.functions.supplies (n.mapChildren f.fold) =
        f.interpreter.functions.supplies n := by cases n <;> rfl
    rw [Policy.allows_mapChildren hpredicates]
    exact h n hn (hsame ▸ hsupplies)

theorem KeepsFresh.draw_eq_self (h : f.KeepsFresh e) (hfold : f.isFoldable e = true) :
    f.interpreter.functions.draw e = e := by
  refine FunctionTable.draw_eq_self fun n hn => ?_
  by_contra hsupplies
  have hallows := ((isFoldable_iff.mp hfold).2 n hn).1
  rw [h n hn (Bool.not_eq_false _ ▸ hsupplies)] at hallows
  cases hallows

end Folder

end QueryTree
