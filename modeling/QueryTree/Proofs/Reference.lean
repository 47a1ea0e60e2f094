import QueryTree.Proofs.Nodes

/-! References of expressions into an arena. A condition on the sources and one on the subqueries
that an expression refers to pass from a node to its direct subexpressions and back. -/

namespace QueryTree.Expr

/-- The condition on a single node. -/
def RefIn (P : SourceId → Prop) (Q : ModelId → Prop) : Expr → Prop
  | sourceRef s => P s
  | subQuery j => Q j
  | _ => True

/-- Every source and every subquery that an expression refers to satisfies its condition. -/
def RefsIn (P : SourceId → Prop) (Q : ModelId → Prop) (e : Expr) : Prop :=
  ∀ n ∈ e.nodes, n.RefIn P Q

variable {P P' : SourceId → Prop} {Q Q' : ModelId → Prop}

theorem mem_sourceRefs {e : Expr} {s : SourceId} : s ∈ e.sourceRefs ↔ sourceRef s ∈ e.nodes := by
  rw [sourceRefs, List.mem_filterMap]
  constructor
  · rintro ⟨n, hn, hs⟩
    cases n <;> simp at hs
    subst hs
    exact hn
  · intro h
    exact ⟨_, h, rfl⟩

theorem mem_subqueries {e : Expr} {j : ModelId} : j ∈ e.subqueries ↔ subQuery j ∈ e.nodes := by
  rw [subqueries, List.mem_filterMap]
  constructor
  · rintro ⟨n, hn, hj⟩
    cases n <;> simp at hj
    subst hj
    exact hn
  · intro h
    exact ⟨_, h, rfl⟩

theorem refsIn_iff {e : Expr} :
    e.RefsIn P Q ↔ (∀ s ∈ e.sourceRefs, P s) ∧ ∀ j ∈ e.subqueries, Q j := by
  constructor
  · intro h
    exact ⟨fun s hs => h _ (mem_sourceRefs.mp hs), fun j hj => h _ (mem_subqueries.mp hj)⟩
  · rintro ⟨hs, hj⟩ n hn
    cases n with
    | sourceRef s => exact hs s (mem_sourceRefs.mpr hn)
    | subQuery j => exact hj j (mem_subqueries.mpr hn)
    | _ => trivial

theorem RefsIn.mono {e : Expr} (h : e.RefsIn P Q) (hP : ∀ s, P s → P' s) (hQ : ∀ j, Q j → Q' j) :
    e.RefsIn P' Q' := by
  rw [refsIn_iff] at h ⊢
  exact ⟨fun s hs => hP s (h.1 s hs), fun j hj => hQ j (h.2 j hj)⟩

theorem refsIn_iff_children {e : Expr} :
    e.RefsIn P Q ↔ e.RefIn P Q ∧ ∀ c ∈ e.children, c.RefsIn P Q :=
  all_iff_children

/-- A node that is no reference passes the condition on to its direct subexpressions. -/
theorem refsIn_inner {e : Expr} (h : e.RefIn P Q) :
    e.RefsIn P Q ↔ ∀ c ∈ e.children, c.RefsIn P Q :=
  refsIn_iff_children.trans (and_iff_right h)

theorem refsIn_leaf {e : Expr} (h : e.children = []) : e.RefsIn P Q ↔ e.RefIn P Q := by
  rw [refsIn_iff_children, h]
  exact and_iff_left (List.forall_mem_nil _)

@[simp] theorem refsIn_sourceRef {s : SourceId} : (sourceRef s).RefsIn P Q ↔ P s := refsIn_leaf rfl

@[simp] theorem refsIn_subQuery {j : ModelId} : (subQuery j).RefsIn P Q ↔ Q j := refsIn_leaf rfl

@[simp] theorem refsIn_constant {v : Value} : (constant v).RefsIn P Q :=
  (refsIn_leaf rfl).mpr trivial

@[simp] theorem refsIn_parameter {name : String} : (parameter name).RefsIn P Q :=
  (refsIn_leaf rfl).mpr trivial

@[simp] theorem refsIn_unary {op : UnaryOp} {e : Expr} :
    (unary op e).RefsIn P Q ↔ e.RefsIn P Q :=
  (refsIn_inner (e := unary op e) trivial).trans List.forall_mem_singleton

@[simp] theorem refsIn_lambda {ps : List String} {b : Expr} :
    (lambda ps b).RefsIn P Q ↔ b.RefsIn P Q :=
  (refsIn_inner (e := lambda ps b) trivial).trans List.forall_mem_singleton

@[simp] theorem refsIn_staticCall {m : Method} {args : List Expr} :
    (staticCall m args).RefsIn P Q ↔ ∀ a ∈ args, a.RefsIn P Q :=
  refsIn_inner (e := staticCall m args) trivial

theorem RefsIn.strip {e : Expr} (h : e.RefsIn P Q) : e.strip.RefsIn P Q := All.strip h

theorem refIn_rule (P : SourceId → Prop) (Q : ModelId → Prop) : NodeRule (RefIn P Q) where
  toHeadRule := by constructor <;> intros <;> trivial
  var _ := trivial

theorem RefsIn.withChildren {e : Expr} (h : e.RefsIn P Q) {es : List Expr}
    (hlen : es.length = e.children.length) (hes : ∀ c ∈ es, c.RefsIn P Q) :
    (e.withChildren es).RefsIn P Q :=
  (refIn_rule P Q).all_withChildren (All.node h) hlen hes

/-- A substitution brings in no references but those of the replacements. -/
theorem RefsIn.substitute {e : Expr} {bindings : Bindings} (h : e.RefsIn P Q)
    (hb : ∀ p ∈ bindings, p.2.RefsIn P Q) : (e.substitute bindings).RefsIn P Q :=
  (refIn_rule P Q).all_substitute h hb

end QueryTree.Expr
