import QueryTree.Proofs.ConstructionRun
import QueryTree.Proofs.ConstructionSteps

/-! The result of a construction: nested chains are cut out of an expression at every depth, and in
the arena of a built query everything is done. -/

namespace QueryTree

open BuildRule

namespace Construction

variable {b : Builder} {R : BuildRule b} {build : Expr → BuildM QueryModel}
  {process : Expr → BuildM Expr} {st : Stage} {scope : List String} {e : Expr}

/-! ### Nested chains -/

theorem kind?_of_strip {r : Registry} (h : r.kind? e.strip = none) : r.kind? e = none := by
  cases e with
  | staticCall m args => exact h
  | _ => rfl

theorem addSubquery_leaves (hb : R.Builds build) {p : Place} (hp : p.params = [])
    (he : R.raw st.scopes p e) (hchain : (b.registry.kind? e.strip).isSome = true) :
    R.Leaves (addSubquery build e) st fun st' e' => R.done st'.scopes p e' := by
  obtain ⟨scope, hraw, hdone⟩ := R.chain hp he hchain
  apply (hb st scope e hraw).bind
  intro m st₁ hst₁ hm
  apply (addModel_leaves hm).bind
  intro id st₂ hst₂ hid
  exact leaves_pure (hdone st₂.scopes id (hst₁.trans hst₂).scopes hid)

/-- Expressions at one place that are processed one after the other. -/
theorem liftChainsAll_leaves {p : Place} {es : List Expr}
    (h : ∀ e ∈ es, ∀ st : Stage, R.raw st.scopes p e →
      R.Leaves (liftChains b.registry build e) st fun st' e' => R.done st'.scopes p e')
    (hes : ∀ e ∈ es, R.raw st.scopes p e) :
    R.Leaves (liftChainsAll b.registry build es) st fun st' es' =>
      es'.length = es.length ∧ ∀ e ∈ es', R.done st'.scopes p e := by
  induction es generalizing st with
  | nil => exact leaves_pure ⟨rfl, by simp⟩
  | cons e es ih =>
    rw [List.forall_mem_cons] at h hes
    apply (h.1 st hes.1).bind
    intro e' st₁ hst₁ he'
    apply (ih h.2 fun e he => R.raw_grow hst₁.scopes (hes.2 e he)).bind
    rintro es' st₂ hst₂ ⟨hlength, hes'⟩
    apply leaves_pure
    exact ⟨by simp [hlength], List.forall_mem_cons.mpr ⟨R.done_grow hst₂.scopes he', hes'⟩⟩

theorem liftChains_leaves (hb : R.Builds build) {p : Place} (hp : p.params = [])
    (he : R.raw st.scopes p e) :
    R.Leaves (liftChains b.registry build e) st fun st' e' => R.done st'.scopes p e' := by
  induction e using Expr.byChildren generalizing st p with
  | step e ih =>
    cases hkind : b.registry.kind? e.strip with
    | some kind =>
      rw [liftChains_of_kind? _ _ hkind]
      exact addSubquery_leaves hb hp he (by simp [hkind])
    | none =>
      have hnone : b.registry.kind? e = none := kind?_of_strip hkind
      rw [liftChains_eq _ _ hkind]
      have hchildren := liftChainsAll_leaves (fun c hc st hraw => ih c hc (p := p.below e) hp hraw)
        (R.descend he hnone)
      apply hchildren.bind
      rintro es st₁ hst₁ ⟨hlength, hes⟩
      exact leaves_pure (R.rebuild hp (R.raw_grow hst₁.scopes he) hnone hlength hes)

/-! ### Chains -/

theorem start_leaves {reused : Bool} (hp : R.Processes process)
    (he : R.raw st.scopes (.part scope false) e) :
    R.Leaves (start process e) st fun st' m => R.Settled reused st' scope m := by
  have hover : R.Leaves (do
      let origin ← process e
      let source ← addGenerated .mainFrom origin none
      pure (QueryModel.ofSource source)) st fun st' m => R.Settled reused st' scope m := by
    apply (hp st scope false e he).bind
    intro origin st₁ _ horigin
    apply (addGenerated_leaves _ _ horigin).bind
    intro source st₂ _ hsource
    exact leaves_pure (.ofSource hsource)
  unfold start
  split
  · apply (addGenerated_leaves _ _ (R.entity he)).bind
    intro source st₁ _ hsource
    exact leaves_pure (.ofSource hsource)
  · split
    · exact fun _ => trivial
    · exact hover
  · exact hover

end Construction

namespace Builder

open Construction

variable {b : Builder} {R : BuildRule b} {build : Expr → BuildM QueryModel}

theorem process_leaves (hb : R.Builds build) : R.Processes (b.process build) := by
  intro st scope selected e he
  apply (liftChains_leaves hb (p := .part scope selected) rfl he).bind
  intro e₁ st₁ hst₁ he₁ hlaid
  have hpasses := R.passes he₁
  cases hrun : Pass.runAll b.passes e₁ with
  | error error => trivial
  | ok e₂ =>
    rw [hrun] at hpasses
    exact ⟨st₁.scopes, .refl st₁, hlaid, hpasses⟩

theorem assemble_leaves (hb : R.Builds build) : R.Builds (b.assemble build) := by
  intro st scope e he
  obtain ⟨hroot, hcalls⟩ := R.operators he
  apply (start_leaves (process_leaves hb) hroot).bind
  intro m st₁ hst₁ hm
  apply applyAll_leaves (process_leaves hb) _ hm
  intro earlier call later heq i a ha
  obtain ⟨hi, rfl⟩ := List.getElem?_eq_some_iff.mp ha
  exact R.raw_grow hst₁.scopes
    (hcalls earlier call later heq _ (List.mem_mapIdx.mpr ⟨i, hi, rfl⟩))

theorem buildChain_leaves (limit : Nat) : R.Builds (b.buildChain limit) := by
  induction limit with
  | zero => exact assemble_leaves fun _ _ _ _ _ => trivial
  | succ limit ih => exact assemble_leaves ih

/-- In the arena of a built query everything is done, and no variables are around the root. -/
theorem build_laid {limit : Nat} {e : Expr} {built : BuiltQuery}
    (he : R.raw [] (.part [] false) e) (hbuilt : b.build limit e = .ok built) :
    ∃ st : Stage, st.construction.arena = built.arena ∧ R.Laid st ∧
      st.scopes[built.root]? = some [] := by
  let start : Stage := ⟨[], ⟨.empty, []⟩⟩
  have hlaid : R.Laid start := ⟨.nil, by simp [start, Arena.empty]⟩
  have hwhole : R.Leaves (do
      let m ← b.buildChain limit e
      addModel m) start fun st' id => st'.scopes[id]? = some [] := by
    apply (buildChain_leaves limit start [] e he).bind
    intro m st₁ _ hm
    exact addModel_leaves hm
  have hrun := hwhole hlaid
  unfold build at hbuilt
  cases hchain : (b.buildChain limit e).run ⟨.empty, []⟩ with
  | error error =>
    rw [hchain] at hbuilt
    cases hbuilt
  | ok result =>
    obtain ⟨m, c⟩ := result
    rw [hchain] at hbuilt
    obtain rfl := Except.ok.inj hbuilt
    have heq : (do
        let m ← b.buildChain limit e
        addModel m) start.construction = addModel m c := by
      change ((b.buildChain limit e).run ⟨.empty, []⟩ >>= fun r => addModel r.1 r.2) = _
      rw [hchain]
      rfl
    rw [heq] at hrun
    obtain ⟨scopes, _, hlaid', hroot⟩ := hrun
    exact ⟨_, rfl, hlaid', hroot⟩

end Builder

/-- Whatever the rule calls done holds of every expression and every sequence in the arena. -/
theorem Builder.build_done {b : Builder} {R : BuildRule b} {limit : Nat} {e : Expr}
    {built : BuiltQuery} (he : R.raw [] (.part [] false) e) (hbuilt : b.build limit e = .ok built) :
    ∃ scopes, (∀ m ∈ built.arena.models, ∀ part ∈ m.expressions,
        ∃ scope, R.done scopes (.part scope false) part) ∧
      ∀ src ∈ built.arena.sources, ∃ scope, R.done scopes (.part scope false) src.origin := by
  obtain ⟨st, harena, hlaid, _⟩ := build_laid he hbuilt
  rw [← harena]
  refine ⟨st.scopes, fun m hm part hpart => ?_, hlaid.sources⟩
  obtain ⟨k, hk⟩ := List.mem_iff_getElem?.mp hm
  obtain ⟨scope, _, hsettled⟩ := hlaid.settled hk
  exact ⟨scope, hsettled.expressions part hpart⟩

/-! ### Conditions on nodes -/

open QueryTree.Expr

theorem OperatorCall.parts_all {call : OperatorCall} {p : Expr → Prop}
    (h : ∀ a ∈ call.args, a.All p) : ∀ part ∈ call.parts, part.body.All p := by
  intro part hpart
  obtain ⟨i, hi, rfl⟩ := List.mem_mapIdx.mp hpart
  have hall : call.args[i].All p := h _ (List.getElem_mem hi)
  rcases call.kind.part_cases i call.args[i] with heq | heq | ⟨ps, b, selected, hlambda, heq⟩
  · rw [heq]
    exact hall
  · rw [heq]
    exact hall.strip
  · have hstrip := hall.strip
    rw [hlambda] at hstrip
    rw [heq]
    exact hstrip.child (by simp [children])

/-- The root of a chain and the arguments of its operators are made of its nodes. -/
theorem Registry.chain_all {r : Registry} {p : Expr → Prop} {e : Expr} (h : e.All p) :
    (r.chain e).1.All p ∧ ∀ call ∈ (r.chain e).2, ∀ a ∈ call.args, a.All p := by
  fun_induction Registry.chain r e with
  | case1 type e ih => exact ih (h.child (by simp [children]))
  | case2 e ih => exact ih (h.child (by simp [children]))
  | case3 m s args kind hkind ih =>
    obtain ⟨hroot, hcalls⟩ := ih (h.child (by simp [children]))
    refine ⟨hroot, fun call hcall => ?_⟩
    rcases List.mem_append.mp hcall with hcall | hcall
    · exact hcalls call hcall
    · obtain rfl := List.mem_singleton.mp hcall
      exact fun a ha => h.child (by simp [children, ha])
  | case4 => exact ⟨h, by simp⟩
  | case5 => exact ⟨h, by simp⟩

/-- A condition on nodes that passes keep and that references satisfy holds of all that a
construction puts into its arena. -/
def BuildRule.ofNodes (b : Builder) {p : Expr → Prop} (hp : PassRule p)
    (hsource : ∀ s, p (.sourceRef s)) (hquery : ∀ j, p (.subQuery j))
    (hpasses : ∀ pass ∈ b.passes, pass.KeepsNodes) : BuildRule b where
  raw _ _ e := e.All p
  done _ _ e := e.All p
  raw_grow _ h := h
  done_grow _ h := h
  loosen h := h
  source _ _ s := all_iff_children.mpr ⟨hsource s, by simp [children]⟩
  subquery {_ _ j} _ _ := all_iff_children.mpr ⟨hquery j, by simp [children]⟩
  entity h := h
  strip h := h.strip
  bind h _ hv := hp.all_substitute h fun binding hbinding =>
    hv binding.2 (List.of_mem_zip (mem_ofPairs hbinding)).2
  operators h := by
    obtain ⟨hroot, hcalls⟩ := Registry.chain_all h
    refine ⟨hroot, fun earlier call later heq => ?_⟩
    exact OperatorCall.parts_all (hcalls call (by simp [heq]))
  descend h _ c hc := h.child hc
  chain {_ _ _} _ h _ :=
    ⟨[], h, fun _ j _ _ => all_iff_children.mpr ⟨hquery j, by simp [children]⟩⟩
  rebuild _ h _ hlength hes := hp.all_withChildren h.node hlength hes
  passes h := (Pass.runAll_all hp hpasses h).mono (fun _ he => he) fun _ _ => trivial

/-- A condition that passes keep holds of all nodes of the expressions in a built arena. -/
theorem Builder.build_all {b : Builder} {p : Expr → Prop} (hp : PassRule p)
    (hsource : ∀ s, p (.sourceRef s)) (hquery : ∀ j, p (.subQuery j))
    (hpasses : ∀ pass ∈ b.passes, pass.KeepsNodes) {limit : Nat} {e : Expr} {built : BuiltQuery}
    (he : e.All p) (hbuilt : b.build limit e = .ok built) :
    (∀ m ∈ built.arena.models, ∀ e ∈ m.expressions, e.All p) ∧
      ∀ src ∈ built.arena.sources, src.origin.All p := by
  let R := BuildRule.ofNodes b hp hsource hquery hpasses
  have hraw : R.raw [] (.part [] false) e := he
  obtain ⟨_, hmodels, hsources⟩ := build_done hraw hbuilt
  exact ⟨fun m hm part hpart => (hmodels m hm part hpart).choose_spec,
    fun src hsrc => (hsources src hsrc).choose_spec⟩

end QueryTree
