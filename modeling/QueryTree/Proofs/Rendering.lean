import QueryTree.Model.Text
import QueryTree.Proofs.ArenaScope

/-! Texts that do not break off: an expression is written in full if its references are, and so is a
model whose sources are in the arena. -/

namespace QueryTree

namespace Written

@[simp] theorem fault_ofText (s : String) : (ofText s).fault = none := rfl

@[simp] theorem fault_append (v w : Written) :
    (v ++ w).fault = none ↔ v.fault = none ∧ w.fault = none := by
  change (v.append w).fault = none ↔ _
  unfold append
  cases h : v.fault <;> simp [h]

theorem fault_joinTail (separator : String) (ws : List Written) :
    (joinTail separator ws).fault = none ↔ ∀ w ∈ ws, w.fault = none := by
  induction ws with
  | nil => simp [joinTail]
  | cons w ws ih => simp [joinTail, ih]

@[simp] theorem fault_join (separator : String) (ws : List Written) :
    (join separator ws).fault = none ↔ ∀ w ∈ ws, w.fault = none := by
  cases ws with
  | nil => simp [join]
  | cons w ws => simp [join, fault_joinTail]

end Written

/-- References that a naming writes in full. -/
abbrev Naming.Covers (n : Naming) (e : Expr) : Prop :=
  e.RefsIn (fun s => (n.source s).fault = none) fun j => (n.subquery j).fault = none

namespace Expr

theorem writeAll_eq_map (n : Naming) (es : List Expr) : writeAll n es = es.map (write n) := by
  induction es with
  | nil => rfl
  | cons e es ih => rw [writeAll, ih, List.map_cons]

theorem write_fault {n : Naming} {e : Expr} (h : n.Covers e) : (e.write n).fault = none := by
  induction e using Expr.byChildren with
  | step e ih =>
    have hchild : ∀ c ∈ e.children, (c.write n).fault = none := fun c hc => ih c hc (All.child h hc)
    clear ih
    cases e with
    | sourceRef s => exact refsIn_sourceRef.mp h
    | subQuery j => exact refsIn_subQuery.mp h
    | _ => simp_all [write, writeAll_eq_map, children]

end Expr

namespace Arena

variable {a : Arena} {n : Naming} {m : QueryModel}

/-- A source of an arena whose sequence is written in full. -/
def Writes (a : Arena) (n : Naming) (s : SourceId) : Prop :=
  ∃ src, a.source? s = some src ∧ n.Covers src.origin

theorem writeSource_fault {s : SourceId} (keyword : String) (hs : a.Writes n s) :
    (a.writeSource n keyword s).fault = none := by
  obtain ⟨src, hs, hn⟩ := hs
  simp [writeSource, hs, Expr.write_fault hn]

theorem writeClause_fault {c : Clause} (hs : ∀ s ∈ c.source?, a.Writes n s)
    (he : ∀ e ∈ c.expressions, n.Covers e) : (a.writeClause n c).fault = none := by
  cases c with
  | filter p => simp [writeClause, Expr.write_fault (he p (by simp [Clause.expressions]))]
  | orderBy keys =>
    have hkeys : ∀ k ∈ keys, (writeSortKey n k).fault = none := by
      intro k hk
      have hkey := Expr.write_fault (he k.key (List.mem_map_of_mem hk))
      simp only [writeSortKey, Written.fault_append, hkey, true_and]
      split <;> exact Written.fault_ofText _
    simpa [writeClause] using hkeys
  | additionalFrom s => simp [writeClause, writeSource_fault "from" (hs s rfl)]
  | join grouped s outer inner =>
    have houter := Expr.write_fault (he outer (by simp [Clause.expressions]))
    have hinner := Expr.write_fault (he inner (by simp [Clause.expressions]))
    simp [writeClause, writeSource_fault "join" (hs s rfl), houter, hinner]

theorem writeOperator_fault {op : ResultOperator} (he : ∀ e ∈ op.expressions, n.Covers e) :
    (writeOperator n op).fault = none := by
  have hall : ∀ w ∈ op.expressions.map (·.write n), w.fault = none := by
    simpa using fun e hin => Expr.write_fault (he e hin)
  unfold writeOperator
  split
  · simp
  · simp
  · split
    · simp
    · simpa using hall

/-- A model is written in full if its sources and expressions are. -/
theorem writeParts_fault (hs : ∀ s ∈ m.declaredSources, a.Writes n s)
    (he : ∀ e ∈ m.expressions, n.Covers e) : (a.writeParts n m).fault = none := by
  have hclauses : ∀ c ∈ m.clauses, (a.writeClause n c).fault = none := by
    intro c hc
    apply writeClause_fault
    · intro s hsrc
      apply hs s (List.mem_cons_of_mem _ (List.mem_append_left _ _))
      exact List.mem_filterMap.mpr ⟨c, hc, hsrc⟩
    · intro e hin
      exact he e (List.mem_append_left _ (List.mem_flatMap.mpr ⟨c, hc, hin⟩))
  have hoperators : ∀ op ∈ m.operators, (writeOperator n op).fault = none := by
    intro op hop
    apply writeOperator_fault
    intro e hin
    apply he e (List.mem_append_right _ (List.mem_cons_of_mem _ _))
    exact List.mem_flatMap.mpr ⟨op, hop, hin⟩
  have hmain := writeSource_fault "from" (hs m.mainFrom List.mem_cons_self)
  have hselect := Expr.write_fault (he m.select (by simp [QueryModel.expressions]))
  simpa [writeParts, hmain, hselect] using ⟨hclauses, hoperators⟩

end Arena

end QueryTree
