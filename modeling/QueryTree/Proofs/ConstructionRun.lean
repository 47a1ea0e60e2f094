import QueryTree.Proofs.Construction

/-! A whole construction: operators are applied one after the other, nested chains become
subqueries, and the models of a query end up closed. -/

namespace QueryTree.Construction

variable {process : Expr → BuildM Expr} {build : Expr → BuildM QueryModel} {scope : List SourceId}
  {c c' : Construction} {m : QueryModel} {method : Method} {e : Expr} {args : List Expr}

/-! ### One operator -/

theorem customArgs_ensures (hp : Processes process) (hm : c.arena.Open scope m)
    (ha : ∀ a ∈ args, c.arena.Admits scope a) :
    Ensures (customArgs process m args) c fun es c' =>
      Advanced c scope m c' ∧ ∀ e ∈ es, c'.arena.Admits (m.declaredSources ++ scope) e := by
  induction args generalizing c with
  | nil => exact ensures_pure ⟨⟨.refl _, hm⟩, by simp⟩
  | cons arg args ih =>
    rw [List.forall_mem_cons] at ha
    have harg := ha.1.strip
    -- the rest is done in the arena that the first argument leaves
    have rest : ∀ e c₁, Processed c (m.declaredSources ++ scope) e c₁ →
        Ensures (do
          let es ← customArgs process m args
          pure (e :: es)) c₁ fun es c' =>
            Advanced c scope m c' ∧ ∀ e ∈ es, c'.arena.Admits (m.declaredSources ++ scope) e := by
      intro e c₁ h₁
      have hm₁ := hm.grow h₁.grows h₁.sound
      refine (ih hm₁ fun a h => (ha.2 a h).grow h₁.grows).bind fun es c₂ h₂ => ?_
      refine ensures_pure ⟨⟨h₁.grows.trans h₂.1.grows, h₂.1.model⟩, ?_⟩
      exact List.forall_mem_cons.mpr ⟨h₁.admits.grow h₂.1.grows, h₂.2⟩
    unfold customArgs
    split
    next p body heq =>
      rw [heq] at harg
      have hbody : c.arena.Admits scope (Lambda.mk [p] body).body := Expr.refsIn_lambda.mp harg
      exact (resolve_in hp hm hbody).bind rest
    next =>
      exact (hp _ _ _ hm.sound (harg.widen (List.subset_append_right _ _))).bind rest

theorem oneExpression_ensures (hp : Processes process) (hm : c.arena.Open scope m)
    (ha : ∀ a ∈ args, c.arena.Admits scope a) (op : Expr → ResultOperator)
    (hs : ∀ e, (op e).source? = none) (he : ∀ e, (op e).expressions = [e]) :
    Ensures (do
      let e ← process (← oneArg method args)
      pure (m.addOperator (op e))) c (Advanced c scope) := by
  refine (oneArg_ensures ha).bind ?_
  rintro a _ ⟨rfl, ha⟩
  refine (hp _ _ _ hm.sound (ha.widen (List.subset_append_right _ _))).bind fun e c₁ h₁ => ?_
  refine ensures_pure ⟨h₁.grows, (hm.grow h₁.grows h₁.sound).addOperator (hs e) ?_⟩
  simpa [he] using h₁.admits

theorem addOperator_ensures (hm : Advanced c scope m c') {op : ResultOperator}
    (hs : op.source? = none) (he : op.expressions = []) :
    Ensures (pure (m.addOperator op)) c' (Advanced c scope) :=
  ensures_pure ⟨hm.grows, hm.model.addOperator hs (by simp [he])⟩

theorem apply_ensures (hp : Processes process) (call : OperatorCall) (hm : c.arena.Open scope m)
    (ha : ∀ a ∈ call.args, c.arena.Admits scope a) :
    Ensures (apply process m call) c (Advanced c scope) := by
  have start : Advanced c scope m c := ⟨.refl _, hm⟩
  unfold apply
  cases hk : call.kind with
  | filter =>
    refine (oneArg_ensures ha).bind ?_
    rintro e _ ⟨rfl, he⟩
    exact filter_ensures hp hm he
  | select =>
    refine (oneArg_ensures ha).bind ?_
    rintro e _ ⟨rfl, he⟩
    exact select_ensures hp hm he
  | selectMany => exact selectManyArgs_ensures hp hm ha
  | join grouped => exact join_ensures hp grouped hm ha
  | orderBy descending =>
    refine (oneArg_ensures ha).bind ?_
    rintro e _ ⟨rfl, he⟩
    exact orderBy_ensures hp descending hm he
  | thenBy descending =>
    refine (oneArg_ensures ha).bind ?_
    rintro e _ ⟨rfl, he⟩
    exact thenBy_ensures hp descending hm he
  | groupBy => exact groupByArgs_ensures hp hm ha
  | take => exact oneExpression_ensures hp hm ha .take (fun _ => rfl) fun _ => rfl
  | skip => exact oneExpression_ensures hp hm ha .skip (fun _ => rfl) fun _ => rfl
  | contains => exact oneExpression_ensures hp hm ha .contains (fun _ => rfl) fun _ => rfl
  | combine kind =>
    exact oneExpression_ensures hp hm ha (.combine kind) (fun _ => rfl) fun _ => rfl
  | element _ _ | count _ | any =>
    refine (optionalArg_ensures ha).bind ?_
    rintro o _ ⟨rfl, ho⟩
    exact (filterIf_ensures hp hm ho).bind fun m c₁ h₁ => addOperator_ensures h₁ rfl rfl
  | all =>
    refine (oneArg_ensures ha).bind ?_
    rintro e _ ⟨rfl, he⟩
    refine (lambdaArg_ensures he).bind ?_
    rintro lambda _ ⟨rfl, hl⟩
    refine (itemPosition_ensures hm).bind fun m c₁ h₁ => ?_
    refine (resolve_in hp h₁.model (hl.grow h₁.grows)).bind fun predicate c₂ h₂ => ?_
    refine ensures_pure ⟨h₁.grows.trans h₂.grows, ?_⟩
    exact (h₁.model.grow h₂.grows h₂.sound).addOperator rfl
      (by simpa [ResultOperator.expressions] using h₂.admits)
  | aggregate kind =>
    refine (optionalArg_ensures ha).bind ?_
    rintro o _ ⟨rfl, ho⟩
    exact (selectIf_ensures hp hm ho).bind fun m c₁ h₁ => addOperator_ensures h₁ rfl rfl
  | distinct | reverse | tracking _ | ignoreFilters =>
    refine noArgs_ensures.bind ?_
    rintro _ _ rfl
    exact addOperator_ensures start rfl rfl
  | cast | ofType =>
    refine noArgs_ensures.bind ?_
    rintro _ _ rfl
    refine targetType_ensures.bind ?_
    rintro type _ rfl
    exact addOperator_ensures start rfl rfl
  | defaultIfEmpty =>
    refine (optionalArg_ensures ha).bind ?_
    rintro o _ ⟨rfl, ho⟩
    cases o with
    | none => exact addOperator_ensures start rfl rfl
    | some arg =>
      have harg := (ho arg rfl).widen (List.subset_append_right m.declaredSources scope)
      refine (hp _ _ _ hm.sound harg).bind fun e c₁ h₁ => ?_
      refine ensures_pure ⟨h₁.grows, (hm.grow h₁.grows h₁.sound).addOperator rfl ?_⟩
      simpa [ResultOperator.expressions] using h₁.admits
  | tag =>
    refine (oneArg_ensures ha).bind ?_
    rintro e _ ⟨rfl, -⟩
    exact tagWith_ensures hm
  | includeLambda =>
    refine (oneArg_ensures ha).bind ?_
    rintro e _ ⟨rfl, he⟩
    exact includeLambda_ensures hm he
  | includeString =>
    refine (oneArg_ensures ha).bind ?_
    rintro e _ ⟨rfl, -⟩
    exact includeString_ensures hm
  | thenInclude =>
    refine (oneArg_ensures ha).bind ?_
    rintro e _ ⟨rfl, he⟩
    exact thenInclude_ensures hm he
  | custom name =>
    refine (customArgs_ensures hp hm ha).bind fun es c₁ h₁ => ?_
    exact ensures_pure ⟨h₁.1.grows, h₁.1.model.addOperator rfl h₁.2⟩

theorem applyAll_ensures (hp : Processes process) (calls : List OperatorCall)
    (hm : c.arena.Open scope m) (ha : ∀ call ∈ calls, ∀ a ∈ call.args, c.arena.Admits scope a) :
    Ensures (applyAll process m calls) c (Advanced c scope) := by
  induction calls generalizing c m with
  | nil => exact ensures_pure ⟨.refl _, hm⟩
  | cons call calls ih =>
    rw [List.forall_mem_cons] at ha
    refine (apply_ensures hp call hm ha.1).bind fun m c₁ h₁ => ?_
    have hrest := ih h₁.model fun call hc a hin => (ha.2 call hc a hin).grow h₁.grows
    exact hrest.mono fun m c₂ h₂ => h₁.trans h₂

/-! ### Nested chains -/

theorem addSubquery_ensures (hb : Builds build) (hs : c.arena.Sound scope)
    (he : c.arena.Admits scope e) : Ensures (addSubquery build e) c (Processed c scope) := by
  refine (hb _ _ _ hs he).bind fun m c₁ h₁ => ?_
  refine (addModel_ensures h₁.model).bind fun id c₂ h₂ => ?_
  exact ensures_pure (h₂.trans h₁.grows)

theorem liftChainsAll_ensures (r : Registry) {es : List Expr}
    (h : ∀ e ∈ es, ∀ c : Construction, c.arena.Sound scope → c.arena.Admits scope e →
      Ensures (liftChains r build e) c (Processed c scope))
    (hs : c.arena.Sound scope) (he : ∀ e ∈ es, c.arena.Admits scope e) :
    Ensures (liftChainsAll r build es) c fun es' c' => c.arena.Grows c'.arena ∧
      c'.arena.Sound scope ∧ es'.length = es.length ∧ ∀ e ∈ es', c'.arena.Admits scope e := by
  induction es generalizing c with
  | nil => exact ensures_pure ⟨.refl _, hs, rfl, by simp⟩
  | cons e es ih =>
    rw [List.forall_mem_cons] at h he
    refine (h.1 c hs he.1).bind fun e' c₁ h₁ => ?_
    refine (ih h.2 h₁.sound fun e hin => (he.2 e hin).grow h₁.grows).bind ?_
    rintro es' c₂ ⟨hg, hs₂, hlength, hes⟩
    refine ensures_pure ⟨h₁.grows.trans hg, hs₂, by simp [hlength], ?_⟩
    exact List.forall_mem_cons.mpr ⟨h₁.admits.grow hg, hes⟩

theorem liftChains_ensures (r : Registry) (hb : Builds build) :
    Processes (liftChains r build) := by
  intro scope c e hs he
  induction e using Expr.byChildren generalizing c with
  | step e ih =>
    cases hkind : r.kind? e.strip with
    | some kind =>
      rw [liftChains_of_kind? _ _ hkind]
      exact addSubquery_ensures hb hs he
    | none =>
      rw [liftChains_eq _ _ hkind]
      refine (liftChainsAll_ensures r ih hs (Expr.refsIn_iff_children.mp he).2).bind ?_
      rintro es c₁ ⟨hg, hs₁, hlength, hes⟩
      exact ensures_pure ⟨hg, hs₁, Expr.RefsIn.withChildren (he.grow hg) hlength hes⟩

/-! ### Chains -/

theorem start_ensures (hp : Processes process) (hs : c.arena.Sound scope)
    (he : c.arena.Admits scope e) : Ensures (start process e) c (Advanced c scope) := by
  have hover : Ensures (do
      let origin ← process e
      let source ← addGenerated .mainFrom origin none
      pure (QueryModel.ofSource source)) c (Advanced c scope) := by
    refine (hp _ _ _ hs he).bind fun origin c₁ h₁ => ?_
    refine (addGenerated_starts _ _ h₁.sound h₁.admits).bind fun source c₂ h₂ => ?_
    exact ensures_pure ⟨h₁.grows.trans h₂.grows, h₂.model⟩
  unfold start
  split
  · exact (addGenerated_starts _ _ hs he).bind fun source c₁ h₁ => ensures_pure h₁
  · split
    · exact .inl rfl
    · exact hover
  · exact hover

end QueryTree.Construction

namespace QueryTree

theorem Registry.chain_refsIn (r : Registry) {P : SourceId → Prop} {Q : ModelId → Prop} {e : Expr}
    (h : e.RefsIn P Q) :
    (r.chain e).1.RefsIn P Q ∧ ∀ call ∈ (r.chain e).2, ∀ a ∈ call.args, a.RefsIn P Q := by
  fun_induction Registry.chain r e with
  | case1 _ e ih => exact ih (Expr.refsIn_unary.mp h)
  | case2 e ih => exact ih (Expr.refsIn_unary.mp h)
  | case3 m s args kind _ ih =>
    rw [Expr.refsIn_staticCall, List.forall_mem_cons] at h
    refine ⟨(ih h.1).1, ?_⟩
    intro call hc
    rcases List.mem_append.mp hc with hc | hc
    · exact (ih h.1).2 call hc
    · rw [List.mem_singleton.mp hc]
      exact h.2
  | case4 m s args _ => exact ⟨h, by simp⟩
  | case5 e => exact ⟨h, by simp⟩

namespace Builder

open Construction

variable {b : Builder} {build : Expr → BuildM QueryModel}

theorem process_processes (hpass : ∀ p ∈ b.passes, p.KeepsRefs) (hb : Builds build) :
    Processes (b.process build) := by
  intro scope c e hs he
  refine (liftChains_ensures b.registry hb scope c e hs he).bind fun e c₁ h₁ => ?_
  have hrun := Pass.runAll_keepsRefs hpass h₁.admits
  cases hr : Pass.runAll b.passes e with
  | ok e' =>
    rw [hr] at hrun
    exact ⟨h₁.grows, h₁.sound, hrun⟩
  | error error =>
    rw [hr] at hrun
    exact .inr hrun

theorem assemble_builds (hpass : ∀ p ∈ b.passes, p.KeepsRefs) (hb : Builds build) :
    Builds (b.assemble build) := by
  intro scope c e hs he
  have hp := process_processes hpass hb
  obtain ⟨hroot, hcalls⟩ := b.registry.chain_refsIn he
  refine (start_ensures hp hs hroot).bind fun m c₁ h₁ => ?_
  have hall := applyAll_ensures hp (b.registry.chain e).2 h₁.model
    fun call hc a ha => Arena.Admits.grow (hcalls call hc a ha) h₁.grows
  exact hall.mono fun m c₂ h₂ => h₁.trans h₂

theorem buildChain_builds (hpass : ∀ p ∈ b.passes, p.KeepsRefs) (limit : Nat) :
    Builds (b.buildChain limit) := by
  induction limit with
  | zero => exact assemble_builds hpass fun _ _ _ _ _ => .inr rfl
  | succ limit ih => exact assemble_builds hpass ih

end Builder

end QueryTree
