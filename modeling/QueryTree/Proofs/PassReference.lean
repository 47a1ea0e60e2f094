import QueryTree.Proofs.PassNodes
import QueryTree.Proofs.Reference

/-! The passes neither make up references nor fail, except that unfolding may run out of its
limit. -/

namespace QueryTree

theorem Expr.refIn_passRule (P : SourceId → Prop) (Q : ModelId → Prop) : PassRule (RefIn P Q) where
  toNodeRule := refIn_rule P Q
  comparison _ _ _ _ _ _ _ _ _ := trivial

namespace Pass

/-- Whatever holds of the references of an expression holds of those of the result. -/
def KeepsRefs (p : Pass) : Prop :=
  ∀ P Q e, e.RefsIn P Q → Yields OnlyLimit (Expr.RefsIn P Q) (p.run e)

theorem KeepsNodes.keepsRefs {p : Pass} (h : p.KeepsNodes) : p.KeepsRefs :=
  fun P Q _ he => h.all (Expr.refIn_passRule P Q) he

theorem runAll_keepsRefs {passes : List Pass} (h : ∀ p ∈ passes, p.KeepsRefs)
    {P : SourceId → Prop} {Q : ModelId → Prop} {e : Expr} (he : e.RefsIn P Q) :
    Yields OnlyLimit (Expr.RefsIn P Q) (runAll passes e) := by
  induction passes generalizing e with
  | nil => exact he
  | cons p ps ih =>
    rw [List.forall_mem_cons] at h
    exact (h.1 P Q e he).bind fun e he => ih h.2 he

theorem foldConstants_keepsRefs (folder : Folder) : (foldConstants folder).KeepsRefs :=
  (foldConstants_keepsNodes folder).keepsRefs

theorem normalize_keepsRefs (limit : Nat) : (normalize limit).KeepsRefs :=
  (normalize_keepsNodes limit).keepsRefs

end Pass

end QueryTree
