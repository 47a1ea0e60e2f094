import QueryTree.Proofs.ConstructionResult
import QueryTree.Proofs.FreeVariables

/-! Operator calls inside lambdas. A call that is cut out of an expression leaves the lambdas around
it behind, and what is substituted into the expression later does not reach it. Where the call
mentions none of the variables that these lambdas bind, this does no harm. -/

namespace QueryTree

open QueryTree.Expr

namespace OperatorCall

/-- The bodies of the lambdas whose results become the items. -/
def selections (call : OperatorCall) : List Expr := (call.parts.filter (·.selected)).map (·.body)

def substitute (call : OperatorCall) (bindings : Bindings) : OperatorCall :=
  { call with args := call.args.map (·.substitute bindings) }

theorem applies_substitute (call : OperatorCall) (bindings : Bindings) :
    (call.substitute bindings).applies = call.applies := by
  unfold applies substitute
  rw [List.length_map]

end OperatorCall

namespace Registry

mutual

/-- The outermost operator calls of an expression, each with the names that are bound around it. -/
def cuts (r : Registry) (bound : List String) : Expr → List (List String × Expr)
  | .member t _ => r.cuts bound t
  | .call t _ args => r.cuts bound t ++ r.cutsOf bound args
  | .staticCall m (s :: args) =>
    if (r.lookup m).isSome then [(bound, .staticCall m (s :: args))]
    else r.cuts bound s ++ r.cutsOf bound args
  | .unary _ e => r.cuts bound e
  | .binary _ left right => r.cuts bound left ++ r.cuts bound right
  | .lambda ps b => r.cuts (ps ++ bound) b
  | .conditional t a b => r.cuts bound t ++ r.cuts bound a ++ r.cuts bound b
  | .invoke c args => r.cuts bound c ++ r.cutsOf bound args
  | _ => []

def cutsOf (r : Registry) (bound : List String) : List Expr → List (List String × Expr)
  | [] => []
  | e :: es => r.cuts bound e ++ r.cutsOf bound es

end

/-- An expression without operator calls. -/
def Flat (r : Registry) (e : Expr) : Prop := e.All fun n => r.kind? n = none

/-- No operator call mentions a name that is bound around it. -/
def Confined (r : Registry) (bound : List String) (e : Expr) : Prop :=
  ∀ cut ∈ r.cuts bound e, ∀ x ∈ cut.1, x ∉ cut.2.freeVars

instance (r : Registry) (bound : List String) (e : Expr) : Decidable (r.Confined bound e) :=
  inferInstanceAs (Decidable (∀ cut ∈ r.cuts bound e, ∀ x ∈ cut.1, x ∉ cut.2.freeVars))

/-- An operator call as its sequence and its operator. -/
def call? (r : Registry) : Expr → Option (Expr × OperatorCall)
  | .staticCall m (s :: args) => (r.lookup m).map fun kind => (s, ⟨m, kind, args⟩)
  | _ => none

/-- What is substituted into later, in the expressions that an operator call brings along: what
earlier operators of the chain select, if this one applies a function to it, and in a strict query
all of its own parts. -/
def exposed (r : Registry) (strict : Bool) (n : Expr) : List Expr :=
  match r.call? n with
  | none => []
  | some (s, op) =>
    (if strict then s :: op.parts.map (·.body) else []) ++
      if op.applies then (r.chain s).2.flatMap (·.selections) else []

/-- Wherever something is substituted later, the operator calls are confined. -/
def Confines (r : Registry) (strict : Bool) (e : Expr) : Prop :=
  e.All fun n => ∀ body ∈ r.exposed strict n, r.Confined [] body

instance (r : Registry) (strict : Bool) (e : Expr) : Decidable (r.Confines strict e) :=
  inferInstanceAs (Decidable (∀ n ∈ e.nodes, ∀ body ∈ r.exposed strict n, r.Confined [] body))

variable {r : Registry} {bound wider : List String} {e : Expr} {bindings : Bindings}

theorem cutsOf_eq_flatMap (es : List Expr) : r.cutsOf bound es = es.flatMap (r.cuts bound) := by
  induction es with
  | nil => rfl
  | cons e es ih => simp [cutsOf, ih]

theorem cuts_eq (r : Registry) (bound : List String) (e : Expr) :
    r.cuts bound e = if (r.kind? e).isSome then [(bound, e)]
      else e.children.flatMap (r.cuts (e.binds ++ bound)) := by
  cases e with
  | staticCall m args =>
    cases args with
    | nil => simp [cuts, kind?, children]
    | cons s args => simp [cuts, kind?, children, binds, cutsOf_eq_flatMap]
  | _ => simp [cuts, kind?, children, binds, cutsOf_eq_flatMap]

theorem confined_of_kind (h : (r.kind? e).isSome = true) :
    r.Confined bound e ↔ ∀ x ∈ bound, x ∉ e.freeVars := by
  unfold Confined
  rw [cuts_eq, if_pos h, List.forall_mem_singleton]

theorem confined_iff_children (h : r.kind? e = none) :
    r.Confined bound e ↔ ∀ c ∈ e.children, r.Confined (e.binds ++ bound) c := by
  unfold Confined
  rw [cuts_eq, if_neg (by simp [h]), List.forall_mem_flatMap]

/-- Names that the expression does not mention may be bound around it as well. -/
theorem Confined.weaken (h : r.Confined bound e)
    (hw : ∀ x ∈ e.freeVars, x ∉ bound → x ∉ wider) : r.Confined wider e := by
  induction e using byChildren generalizing bound wider with
  | step e ih =>
    cases hkind : r.kind? e with
    | some kind =>
      have hsome : (r.kind? e).isSome = true := by simp [hkind]
      rw [confined_of_kind hsome] at h ⊢
      intro x hx hfree
      exact hw x hfree (fun hin => h x hin hfree) hx
    | none =>
      rw [confined_iff_children hkind] at h ⊢
      intro c hc
      apply ih c hc (h c hc)
      intro x hx hbound
      rw [List.mem_append, not_or] at hbound ⊢
      exact ⟨hbound.1, hw x (mem_freeVars_of_child hc hx hbound.1) hbound.2⟩

theorem Confined.strip (h : r.Confined bound e) : r.Confined bound e.strip := by
  fun_induction Expr.strip e with
  | case1 _ e ih => exact ih ((confined_iff_children rfl).mp h e (by simp [children]))
  | case2 e ih => exact ih ((confined_iff_children rfl).mp h e (by simp [children]))
  | case3 e => exact h

theorem confined_of_flat (h : r.Flat e) : r.Confined bound e := by
  induction e using byChildren generalizing bound with
  | step e ih =>
    rw [confined_iff_children (All.node h)]
    exact fun c hc => ih c hc (All.child h hc)

/-! ### Substitution -/

theorem kind?_mapChildren (f : Expr → Expr) : r.kind? (e.mapChildren f) = r.kind? e := by
  cases e with
  | staticCall m args => cases args <;> rfl
  | _ => rfl

theorem flat_var (x : String) : r.Flat (.var x) := by simp [Flat, All, nodes, kind?]

theorem flat_replacement (hb : ∀ binding ∈ bindings, r.Flat binding.2) (x : String) :
    r.Flat ((bindings.lookup x).getD (.var x)) := by
  cases hl : bindings.lookup x with
  | none => exact flat_var x
  | some v => exact hb _ (mem_of_lookup hl)

/-- Bindings in the body of a lambda replace by what they replaced around it, or by variables. -/
theorem flat_renameParams {incoming ps taken : List String}
    (hb : ∀ binding ∈ bindings, r.Flat binding.2) :
    ∀ binding ∈ (renameParams incoming ps taken (bindings.filter (·.1 ∉ ps))).2,
      r.Flat binding.2 := by
  intro binding hbinding
  rcases mem_renameParams hbinding with hbinding | ⟨name, hname⟩
  · exact hb binding (List.mem_filter.mp hbinding).1
  · rw [hname]
    exact flat_var name

/-- Replacements without operator calls keep an expression confined, unless their variables are
bound around it. -/
theorem Confined.substitute (h : r.Confined bound e)
    (hb : ∀ binding ∈ bindings, r.Flat binding.2)
    (hw : ∀ x ∈ e.freeVars, x ∉ bound →
      ∀ y ∈ ((bindings.lookup x).getD (.var x)).freeVars, y ∉ wider) :
    r.Confined wider (e.substitute bindings) := by
  induction e using byScopes generalizing bound wider bindings with
  | var x => exact confined_of_flat (flat_replacement hb x)
  | lambda ps b ih =>
    simp only [Expr.substitute]
    split
    next hempty =>
      apply h.weaken
      intro x hx hbound
      have hps : x ∉ ps := by simpa using (List.mem_filter.mp hx).2
      have hnone : bindings.lookup x = none := by
        rw [← lookup_filter_not_mem hps, List.isEmpty_iff.mp hempty, List.lookup_nil]
      exact hw x hx hbound x (by simp [hnone, freeVars])
    next =>
      have hbody : r.Confined (ps ++ bound) b :=
        (confined_iff_children rfl).mp h b (by simp [children])
      rw [confined_iff_children rfl]
      simp only [children, List.forall_mem_singleton, binds]
      apply ih hbody (flat_renameParams hb)
      intro x hx hbound y hy
      rw [List.mem_append, not_or] at hbound
      rw [lookup_renameParams_of_not_mem hbound.1, lookup_filter_not_mem hbound.1] at hy
      rw [List.mem_append, not_or]
      constructor
      · apply not_mem_renameParams hbound.1 _ _ hy
        · simp [hx]
        · intro z hz
          exact List.mem_append_left _ (List.mem_append_left _ hz)
      · exact hw x (by simp [freeVars, hx, hbound.1]) hbound.2 y hy
  | node e hvar hlambda ih =>
    have heq := substitute_eq_mapChildren hvar hlambda bindings
    cases hkind : r.kind? e with
    | some kind =>
      have hsome : (r.kind? e).isSome = true := by simp [hkind]
      have hsome' : (r.kind? (e.substitute bindings)).isSome = true := by
        rw [heq, kind?_mapChildren]
        exact hsome
      rw [confined_of_kind hsome] at h
      rw [confined_of_kind hsome']
      intro y hy hfree
      obtain ⟨x, hx, hyx⟩ := exists_of_mem_freeVars_substitute hfree
      exact hw x hx (fun hin => h x hin hx) y hyx hy
    | none =>
      have hbinds : e.binds = [] := by
        cases e with
        | lambda ps b => exact absurd rfl (hlambda ps b)
        | _ => rfl
      rw [confined_iff_children hkind, hbinds] at h
      rw [heq, confined_iff_children (by rw [kind?_mapChildren, hkind]), children_mapChildren,
        binds_mapChildren, hbinds, List.forall_mem_map]
      intro c hc
      exact ih c hc (h c hc) hb fun x hx => hw x (freeVars_of_child hlambda hc hx)

/-- A lambda stays one of as many parameters, and a substitution goes on in its body. -/
theorem substitute_lambda (ps : List String) (b : Expr)
    (hb : ∀ binding ∈ bindings, r.Flat binding.2) :
    ∃ ps' bindings', (∀ binding ∈ bindings', r.Flat binding.2) ∧
      ps'.length = ps.length ∧ ∃ b', (b' = b ∨ b' = b.substitute bindings') ∧
        (Expr.lambda ps b).substitute bindings = .lambda ps' b' := by
  simp only [Expr.substitute]
  split
  · exact ⟨ps, bindings, hb, rfl, b, .inl rfl, rfl⟩
  · exact ⟨_, _, flat_renameParams hb, length_renameParams, _, .inr rfl, rfl⟩

theorem chain_of_flat (h : r.Flat e) : (r.chain e).2 = [] := by
  fun_induction Registry.chain r e with
  | case1 type e ih => exact ih (All.child h (by simp [children]))
  | case2 e ih => exact ih (All.child h (by simp [children]))
  | case3 m s args kind hkind ih =>
    have hnone : r.lookup m = none := All.node h
    simp [hnone] at hkind
  | case4 => rfl
  | case5 => rfl

theorem call?_eq_none (h : r.kind? e = none) : r.call? e = none := by
  unfold call?
  split
  next m s args =>
    have hnone : r.lookup m = none := h
    rw [hnone, Option.map_none]
  next => rfl

theorem call?_mapChildren (bindings : Bindings) :
    r.call? (e.mapChildren (·.substitute bindings)) =
      (r.call? e).map fun (s, op) => (s.substitute bindings, op.substitute bindings) := by
  cases e with
  | staticCall m args =>
    cases args with
    | nil => rfl
    | cons s args =>
      simp only [mapChildren, List.map_cons, call?, Option.map_map]
      rfl
  | _ => rfl

theorem confined_part_substitute {kind : OperatorKind} {i : Nat} {strict : Bool}
    (hb : ∀ binding ∈ bindings, r.Flat binding.2)
    (h : (strict || (kind.part i e).selected) = true → r.Confined [] (kind.part i e).body)
    (hs : (strict || (kind.part i (e.substitute bindings)).selected) = true) :
    r.Confined [] (kind.part i (e.substitute bindings)).body := by
  by_cases hrole : kind.role i = .value
  · rw [OperatorKind.part_of_value hrole] at h hs ⊢
    exact (h hs).substitute hb (by simp)
  rcases strip_substitute e bindings with ⟨x, _, heq⟩ | ⟨hvar, heq⟩
  · -- the replacement takes the place of the argument, and has no operator calls
    have hstrip : r.Flat (e.substitute bindings).strip := by
      rw [heq]
      exact All.strip (flat_replacement hb x)
    by_cases hlambda : ∃ ps b, (e.substitute bindings).strip = .lambda ps b
    · obtain ⟨ps, b, hlambda⟩ := hlambda
      rw [OperatorKind.part_of_lambda hrole hlambda]
      rw [hlambda] at hstrip
      split
      · exact confined_of_flat (All.child hstrip (by simp [children]))
      · exact confined_of_flat hstrip
    · rw [OperatorKind.part_of_not_lambda hrole fun ps b hb => hlambda ⟨ps, b, hb⟩]
      exact confined_of_flat hstrip
  by_cases hlambda : ∃ ps b, e.strip = .lambda ps b
  · obtain ⟨ps, b, hlambda⟩ := hlambda
    obtain ⟨ps', bindings', hb', hlen, b', hbody, heq'⟩ := substitute_lambda ps b hb
    rw [hlambda, heq'] at heq
    rw [OperatorKind.part_of_lambda hrole hlambda] at h
    rw [OperatorKind.part_of_lambda hrole heq, hlen] at hs ⊢
    split at h
    next hbinds =>
      rw [if_pos hbinds] at hs ⊢
      rcases hbody with rfl | rfl
      · exact h hs
      · exact (h hs).substitute hb' (by simp)
    next hbinds =>
      rw [if_neg hbinds] at hs ⊢
      rw [← heq']
      exact (h hs).substitute hb (by simp)
  · have hnone : ∀ ps b, (e.substitute bindings).strip ≠ .lambda ps b := by
      intro ps b
      rw [heq, substitute_eq_mapChildren hvar fun ps b hb => hlambda ⟨ps, b, hb⟩]
      cases hstrip : e.strip with
      | lambda ps b => exact absurd ⟨ps, b, hstrip⟩ hlambda
      | _ => nofun
    rw [OperatorKind.part_of_not_lambda hrole fun ps b hb => hlambda ⟨ps, b, hb⟩] at h
    rw [OperatorKind.part_of_not_lambda hrole hnone, heq] at hs ⊢
    exact (h hs).substitute hb (by simp)

theorem confined_parts_substitute {op : OperatorCall} (strict : Bool)
    (hb : ∀ binding ∈ bindings, r.Flat binding.2)
    (h : ∀ part ∈ op.parts, (strict || part.selected) = true → r.Confined [] part.body) :
    ∀ part ∈ (op.substitute bindings).parts, (strict || part.selected) = true →
      r.Confined [] part.body := by
  intro part hpart
  obtain ⟨i, hi, rfl⟩ := List.mem_mapIdx.mp hpart
  simp only [OperatorCall.substitute, List.length_map] at hi
  simp only [OperatorCall.substitute, List.getElem_map]
  exact confined_part_substitute hb (h _ (List.mem_mapIdx.mpr ⟨i, hi, rfl⟩))

theorem chain_substitute (hb : ∀ binding ∈ bindings, r.Flat binding.2) :
    ∀ call' ∈ (r.chain (e.substitute bindings)).2,
      ∃ call ∈ (r.chain e).2, call' = call.substitute bindings := by
  fun_induction Registry.chain r e with
  | case1 type e ih => exact ih
  | case2 e ih => exact ih
  | case3 m s args kind hkind ih =>
    intro call' hcall'
    simp only [Expr.substitute, substituteAll, chain, hkind, List.mem_append,
      List.mem_singleton] at hcall'
    rcases hcall' with hcall' | rfl
    · obtain ⟨call, hcall, rfl⟩ := ih call' hcall'
      exact ⟨call, List.mem_append_left _ hcall, rfl⟩
    · refine ⟨⟨m, kind, args⟩, by simp, ?_⟩
      simp [OperatorCall.substitute, substituteAll_eq_map]
  | case4 m s args hkind => simp [Expr.substitute, substituteAll, chain, hkind]
  | case5 e hconvert hquote hcall =>
    have hnone : (r.chain (e.substitute bindings)).2 = [] := by
      cases e with
      | var x => exact chain_of_flat (flat_replacement hb x)
      | unary op e =>
        cases op with
        | convert type => exact absurd rfl (hconvert type e)
        | quote => exact absurd rfl (hquote e)
        | _ => rfl
      | staticCall m args =>
        cases args with
        | nil => rfl
        | cons s args => exact absurd rfl (hcall m s args)
      | lambda ps b =>
        simp only [Expr.substitute]
        split <;> rfl
      | _ => rfl
    simp [hnone]

theorem confines_iff_children {strict : Bool} :
    r.Confines strict e ↔
      (∀ s op, r.call? e = some (s, op) →
        (strict = true → r.Confined [] s ∧ ∀ part ∈ op.parts, r.Confined [] part.body) ∧
        (op.applies = true → ∀ earlier ∈ (r.chain s).2, ∀ part ∈ earlier.parts,
          part.selected = true → r.Confined [] part.body)) ∧
      ∀ c ∈ e.children, r.Confines strict c := by
  have hite : ∀ (c : Bool) (l : List Expr), (∀ body ∈ if c then l else [], r.Confined [] body) ↔
      (c = true → ∀ body ∈ l, r.Confined [] body) := by
    intro c l
    cases c <;> simp
  unfold Confines
  rw [all_iff_children]
  apply and_congr_left'
  unfold exposed
  cases hcall : r.call? e with
  | none => simp
  | some found =>
    obtain ⟨s, op⟩ := found
    simp only [List.forall_mem_append, hite, List.forall_mem_cons, List.forall_mem_map,
      List.forall_mem_flatMap, OperatorCall.selections, List.mem_filter, and_imp, Option.some.injEq,
      Prod.mk.injEq]
    constructor
    · rintro h s' op' rfl rfl
      exact h
    · intro h
      exact h s op rfl rfl

theorem confines_of_flat {strict : Bool} (h : r.Flat e) :
    r.Confines strict e := by
  induction e using byChildren with
  | step e ih =>
    rw [confines_iff_children]
    refine ⟨?_, fun c hc => ih c hc (All.child h hc)⟩
    intro s op hcall
    rw [call?_eq_none (All.node h)] at hcall
    cases hcall

theorem Confines.substitute {strict : Bool} (h : r.Confines strict e)
    (hb : ∀ binding ∈ bindings, r.Flat binding.2) :
    r.Confines strict (e.substitute bindings) := by
  induction e using byScopes generalizing bindings with
  | var x => exact confines_of_flat (flat_replacement hb x)
  | lambda ps b ih =>
    obtain ⟨ps', bindings', hb', _, b', hbody, heq⟩ := substitute_lambda ps b hb
    have hchild := (confines_iff_children.mp h).2 b (by simp [children])
    have hbody' : r.Confines strict b' := by
      rcases hbody with rfl | rfl
      · exact hchild
      · exact ih hchild hb'
    rw [heq, confines_iff_children]
    exact ⟨nofun, by simpa [children] using hbody'⟩
  | node e hvar hlambda ih =>
    obtain ⟨hnode, hchild⟩ := confines_iff_children.mp h
    rw [substitute_eq_mapChildren hvar hlambda,
      confines_iff_children, children_mapChildren, List.forall_mem_map]
    refine ⟨?_, fun c hc => ih c hc (hchild c hc) hb⟩
    intro s' op' hcall'
    rw [call?_mapChildren] at hcall'
    obtain ⟨⟨s, op⟩, hcall, heq⟩ := Option.map_eq_some_iff.mp hcall'
    obtain ⟨rfl, rfl⟩ := Prod.mk.inj heq
    obtain ⟨hstrict, hearlier⟩ := hnode s op hcall
    constructor
    · intro hs
      obtain ⟨hsequence, hparts⟩ := hstrict hs
      refine ⟨hsequence.substitute hb (by simp), ?_⟩
      intro part hpart
      exact confined_parts_substitute true hb (fun part hpart _ => hparts part hpart) part hpart rfl
    · intro happlies call' hcall'
      rw [OperatorCall.applies_substitute] at happlies
      obtain ⟨call, hcall, rfl⟩ := chain_substitute hb call' hcall'
      exact confined_parts_substitute false hb (hearlier happlies call hcall)

end Registry

end QueryTree
