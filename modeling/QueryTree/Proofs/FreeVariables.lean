import QueryTree.Proofs.PassNodes
import QueryTree.Proofs.Substitution

/-! Free variables. All variables of an expression are in scope exactly if its free variables are in
the scope around it. Substitution brings in no free variables but those of the replacements, hence
no pass takes a variable out of its scope. -/

namespace QueryTree.Expr

variable {e c b : Expr} {x : String} {scope ps : List String} {bindings : Bindings}

theorem mem_freeVars_iff :
    x ∈ e.freeVars ↔ e = .var x ∨ x ∉ e.binds ∧ ∃ c ∈ e.children, x ∈ c.freeVars := by
  cases e with
  | var y => simp [freeVars, children, eq_comm]
  | lambda ps b => simp [freeVars, children, binds, and_comm]
  | _ => simp [freeVars, children, binds, freeVarsOf_eq_flatMap]

theorem mem_freeVars_of_child (hc : c ∈ e.children) (hx : x ∈ c.freeVars) (hbinds : x ∉ e.binds) :
    x ∈ e.freeVars :=
  mem_freeVars_iff.mpr (.inr ⟨hbinds, c, hc, hx⟩)

theorem freeVars_strip (e : Expr) : e.strip.freeVars = e.freeVars := by
  fun_induction Expr.strip e with
  | case1 _ e ih => exact ih
  | case2 e ih => exact ih
  | case3 e => rfl

/-- A variable has to be in scope. -/
def InScope (scope : List String) (n : Expr) : Prop := ∀ x, n = .var x → x ∈ scope

theorem throughout_inScope_iff : e.Throughout InScope scope ↔ e.freeVars ⊆ scope := by
  induction e using byChildren generalizing scope with
  | step e ih =>
    rw [throughout_iff_children]
    constructor
    · rintro ⟨hnode, hchild⟩ x hx
      rcases mem_freeVars_iff.mp hx with rfl | ⟨hbinds, c, hc, hxc⟩
      · exact hnode x rfl
      · have hin := (ih c hc).mp (hchild c hc) hxc
        exact (List.mem_append.mp hin).resolve_left hbinds
    · intro h
      constructor
      · intro x hx
        exact h (mem_freeVars_iff.mpr (.inl hx))
      · intro c hc
        rw [ih c hc]
        intro x hx
        by_cases hbinds : x ∈ e.binds
        · exact List.mem_append_left _ hbinds
        · exact List.mem_append_right _ (h (mem_freeVars_of_child hc hx hbinds))

/-! ### Substitution -/

/-- A free variable of the result comes from the replacement of a free variable. -/
theorem exists_of_mem_freeVars_substitute (hx : x ∈ (e.substitute bindings).freeVars) :
    ∃ y ∈ e.freeVars, x ∈ ((bindings.lookup y).getD (.var y)).freeVars := by
  induction e using byScopes generalizing bindings with
  | var y => exact ⟨y, by simp [freeVars], hx⟩
  | lambda ps b ih =>
    obtain ⟨renamed, inner, heq, hren⟩ := substitute_lambda ps b bindings
    rw [heq] at hx
    obtain ⟨hbody, hrenamed⟩ := List.mem_filter.mp hx
    obtain ⟨y, hy, hxy⟩ := ih hbody
    by_cases hps : y ∈ ps
    · obtain ⟨z, hz, hvar, _⟩ := hren.param y hps
      rw [hvar] at hxy
      obtain rfl : x = z := by simpa [freeVars] using hxy
      exact absurd hz (by simpa using hrenamed)
    · rw [hren.outer y hps] at hxy
      exact ⟨y, by simp [freeVars, hy, hps], hxy⟩
  | node e hvar hlambda ih =>
    rw [substitute_eq_mapChildren hvar hlambda, mem_freeVars_iff, children_mapChildren,
      binds_mapChildren] at hx
    rcases hx with hx | ⟨hbinds, d, hd, hxd⟩
    · cases e <;> simp_all [mapChildren]
    · obtain ⟨c, hc, rfl⟩ := List.mem_map.mp hd
      obtain ⟨y, hy, hxy⟩ := ih c hc hxd
      exact ⟨y, freeVars_of_child hlambda hc hy, hxy⟩

/-- Once its parameters are replaced, a body has no free variables but those in scope. -/
theorem freeVars_substitute_params {values : List Expr} (hlen : ps.length = values.length)
    (hb : b.freeVars ⊆ ps ++ scope) (hv : ∀ v ∈ values, v.freeVars ⊆ scope) :
    (b.substitute (Bindings.ofPairs (ps.zip values))).freeVars ⊆ scope := by
  intro x hx
  obtain ⟨y, hy, hxy⟩ := exists_of_mem_freeVars_substitute hx
  cases hl : (Bindings.ofPairs (ps.zip values)).lookup y with
  | some v =>
    rw [hl, Option.getD_some] at hxy
    exact hv v (List.of_mem_zip (mem_ofPairs (mem_of_lookup hl))).2 hxy
  | none =>
    rw [hl, Option.getD_none] at hxy
    obtain rfl : x = y := by simpa [freeVars] using hxy
    rw [lookup_ofPairs, List.lookup_eq_none_iff] at hl
    have hps : x ∉ ps := by
      intro hin
      rw [← List.map_fst_zip (Nat.le_of_eq hlen)] at hin
      obtain ⟨p, hp, rfl⟩ := List.mem_map.mp hin
      simpa using hl p (List.mem_reverse.mpr hp)
    exact (List.mem_append.mp (hb hy)).resolve_left hps

theorem inScope_rule : RewriteRule InScope where
  constant _ _ _ h := nomatch h
  unary _ _ _ _ h := nomatch h
  binary _ _ _ _ _ h := nomatch h
  lambda _ _ _ _ h := nomatch h
  conditional _ _ _ _ _ h := nomatch h
  member _ _ _ _ _ _ h := nomatch h
  call _ _ _ _ _ _ _ _ _ h := nomatch h
  staticCall _ _ _ _ _ _ _ h := nomatch h
  invoke _ _ _ _ _ _ _ _ h := nomatch h
  comparison _ _ _ _ _ _ _ _ _ _ _ h := nomatch h
  unfolding := by
    intro scope callee args body hbody h
    rw [throughout_inScope_iff] at h ⊢
    obtain ⟨ps, b, hb, hlen, rfl⟩ := eq_of_unfolded? hbody
    have hcallee : callee.freeVars ⊆ scope := fun x hx =>
      h (mem_freeVars_of_child (by simp [children]) hx (by simp [binds]))
    apply freeVars_substitute_params hlen
    · rw [← freeVars_strip, hb, ← throughout_inScope_iff] at hcallee
      exact throughout_inScope_iff.mp (hcallee.child (by simp [children]))
    · intro v hv x hx
      exact h (mem_freeVars_of_child (by simp [children, hv]) hx (by simp [binds]))

end QueryTree.Expr
