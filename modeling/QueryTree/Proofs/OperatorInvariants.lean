import QueryTree.Proofs.OperatorRecords
import QueryTree.Proofs.SourceNames

/-! Properties of the operators of all models. A property that holds of no operators, and that is
kept whenever a chain adds one, holds in every model of a built query, be it the model of a chain,
of a chain nested in it, or one that was wrapped on the way. -/

namespace QueryTree

namespace Arena

variable {a b : Arena}

/-- Later arenas keep models, and sources up to their names. -/
structure Continues (a b : Arena) : Prop where
  models : a.models <+: b.models
  sources : a.anonymous.sources <+: b.anonymous.sources

namespace Continues

theorem refl (a : Arena) : a.Continues a := ⟨List.prefix_rfl, List.prefix_rfl⟩

theorem trans {c : Arena} (h : a.Continues b) (h' : b.Continues c) : a.Continues c :=
  ⟨h.models.trans h'.models, h.sources.trans h'.sources⟩

theorem source? {s : SourceId} {src : QuerySource} (h : a.Continues b)
    (hs : a.source? s = some src) :
    ∃ src', b.source? s = some src' ∧ src'.anonymous = src.anonymous := by
  obtain ⟨later, hlater⟩ := h.sources
  have hfirst : a.anonymous.sources[s]? = some src.anonymous :=
    (a.source?_anonymous s).trans (by rw [hs, Option.map_some])
  have hboth : b.anonymous.source? s = some src.anonymous := by
    rw [Arena.source?, ← hlater, List.getElem?_append_left (List.getElem?_eq_some_iff.mp hfirst).1,
      hfirst]
  rwa [source?_anonymous, Option.map_eq_some_iff] at hboth

theorem isGroups {s : SourceId} (h : a.Continues b) (hs : a.IsGroups s) : b.IsGroups s := by
  obtain ⟨src, hs, hkind⟩ := hs
  obtain ⟨src', hs', heq⟩ := h.source? hs
  exact ⟨src', hs', (congrArg QuerySource.kind heq).trans hkind⟩

end Continues

theorem continues_addModel (a : Arena) (m : QueryModel) : a.Continues (a.addModel m).2 :=
  ⟨List.prefix_append _ _, List.prefix_rfl⟩

theorem continues_addSource (a : Arena) (src : QuerySource) : a.Continues (a.addSource src).2 := by
  refine ⟨List.prefix_rfl, ?_⟩
  rw [anonymous_addSource]
  exact List.prefix_append _ _

theorem continues_renameSource (a : Arena) (s : SourceId) (name : String) :
    a.Continues (a.renameSource s name) := by
  refine ⟨List.prefix_rfl, ?_⟩
  simp only [anonymous_renameSource, List.prefix_rfl]

end Arena

/-- A property of operators that chains keep. -/
structure OperatorInvariant (J : Arena → List ResultOperator → Prop) : Prop where
  later : ∀ {a b : Arena} {ops : List ResultOperator}, a.Continues b → J a ops → J b ops
  nil : ∀ a, J a []
  /-- An operator that ranges over items is not added directly after a grouping. -/
  add : ∀ {a : Arena} {m : QueryModel} {op : ResultOperator},
    (op.rangesOverItems = true → m.groupSource? = none) → (∀ s ∈ op.source?, a.IsGroups s) →
    J a m.operators → J a (m.operators ++ [op])
  extendInclude : ∀ {a : Arena} {names : List String} {ops ops' : List ResultOperator},
    Construction.extendInclude? names ops.reverse = some ops' → J a ops → J a ops'.reverse

namespace Construction

variable {J : Arena → List ResultOperator → Prop} {process : Expr → BuildM Expr}
  {build : Expr → BuildM QueryModel} {c d : Construction} {m : QueryModel} {s t : Draft}
  {l : List Entry}

def Obeys (J : Arena → List ResultOperator → Prop) (c : Construction) : Prop :=
  ∀ m ∈ c.arena.models, J c.arena m.operators

/-- The models of the arena and the one under construction have the property. -/
structure Draft.Obeys (J : Arena → List ResultOperator → Prop) (s : Draft) : Prop where
  models : s.construction.Obeys J
  model : J s.construction.arena s.model.operators

/-- Expressions are processed without harm to the property. -/
def Upholds (J : Arena → List ResultOperator → Prop) (process : Expr → BuildM Expr) : Prop :=
  ∀ e c e' d, process e c = .ok (e', d) → c.Obeys J → c.arena.Continues d.arena ∧ d.Obeys J

/-- So are chains, and their models have the property. -/
def UpholdsModels (J : Arena → List ResultOperator → Prop) (build : Expr → BuildM QueryModel) :
    Prop :=
  ∀ e c m d, build e c = .ok (m, d) → c.Obeys J → c.arena.Continues d.arena ∧ Draft.Obeys J ⟨m, d⟩

theorem Obeys.later (hJ : OperatorInvariant J) (hc : c.Obeys J)
    (hmodels : d.arena.models = c.arena.models)
    (hcont : c.arena.Continues d.arena) : d.Obeys J := by
  intro m hm
  exact hJ.later hcont (hc m (hmodels ▸ hm))

theorem Obeys.addModel (hJ : OperatorInvariant J) (h : Draft.Obeys J ⟨m, c⟩) :
    Obeys J { c with arena := (c.arena.addModel m).2 } := by
  have hcont := c.arena.continues_addModel m
  intro n hn
  rcases List.mem_append.mp hn with hn | hn
  · exact hJ.later hcont (h.models n hn)
  · obtain rfl := List.mem_singleton.mp hn
    exact hJ.later hcont h.model

theorem Step.obeys (hJ : OperatorInvariant J) (hp : Upholds J process) (h : Step process s l t)
    (hs : s.Obeys J) : s.construction.arena.Continues t.construction.arena ∧ t.Obeys J := by
  cases h with
  | process h =>
    obtain ⟨hcont, hmodels⟩ := hp _ _ _ _ h hs.models
    exact ⟨hcont, hmodels, hJ.later hcont hs.model⟩
  | rename m c id name =>
    have hcont := c.arena.continues_renameSource id name
    exact ⟨hcont, hs.models.later hJ rfl hcont, hJ.later hcont hs.model⟩
  | @source m c src =>
    have hcont := c.arena.continues_addSource src
    exact ⟨hcont, hs.models.later hJ rfl hcont, hJ.later hcont hs.model⟩
  | @wrap m c src =>
    -- The model becomes one of the arena, and the new one has no operators.
    have hcont := (c.arena.addModel m).2.continues_addSource src
    exact ⟨(c.arena.continues_addModel m).trans hcont, (Obeys.addModel hJ hs).later hJ rfl hcont,
      hJ.nil _⟩
  | clause | select | ordering => exact ⟨.refl _, hs.models, hs.model⟩
  | operator _ _ hitems hgroups => exact ⟨.refl _, hs.models, hJ.add hitems hgroups hs.model⟩
  | path _ hops => exact ⟨.refl _, hs.models, hJ.extendInclude hops hs.model⟩

theorem Run.obeys (hJ : OperatorInvariant J) (hp : Upholds J process) (h : Run process s l t)
    (hs : s.Obeys J) : s.construction.arena.Continues t.construction.arena ∧ t.Obeys J := by
  induction h with
  | refl => exact ⟨.refl _, hs⟩
  | step hstep _ ih =>
    obtain ⟨hcont, ht⟩ := hstep.obeys hJ hp hs
    obtain ⟨hcont', hu⟩ := ih ht
    exact ⟨hcont.trans hcont', hu⟩

/-! ### Nested chains -/

theorem liftChainsAll_upholds {r : Registry} {es es' : List Expr}
    (hes : ∀ e ∈ es, ∀ c e' d, liftChains r build e c = .ok (e', d) → c.Obeys J →
      c.arena.Continues d.arena ∧ d.Obeys J)
    (h : liftChainsAll r build es c = .ok (es', d)) (hc : c.Obeys J) :
    c.arena.Continues d.arena ∧ d.Obeys J := by
  induction es generalizing c es' with
  | nil =>
    obtain ⟨-, rfl⟩ := Prod.mk.inj (Except.ok.inj h)
    exact ⟨.refl _, hc⟩
  | cons e es ih =>
    rw [List.forall_mem_cons] at hes
    obtain ⟨e', c₁, he, h⟩ := bind_ok h
    obtain ⟨es', c₂, hes', h⟩ := bind_ok h
    obtain ⟨-, rfl⟩ := Prod.mk.inj (Except.ok.inj h)
    obtain ⟨hcont, hc₁⟩ := hes.1 c e' c₁ he hc
    obtain ⟨hcont', hc₂⟩ := ih hes.2 hes' hc₁
    exact ⟨hcont.trans hcont', hc₂⟩

theorem liftChains_upholds (hJ : OperatorInvariant J) (r : Registry) (hb : UpholdsModels J build) :
    Upholds J (liftChains r build) := by
  intro e c e' d h hc
  induction e using Expr.byChildren generalizing c e' d with
  | step e ih =>
    cases hkind : r.kind? e.strip with
    | some kind =>
      rw [liftChains_of_kind? _ _ hkind] at h
      obtain ⟨m, c₁, hm, h⟩ := bind_ok h
      obtain ⟨hcont, hdraft⟩ := hb e c m c₁ hm hc
      obtain ⟨-, rfl⟩ := Prod.mk.inj (Except.ok.inj h)
      exact ⟨hcont.trans (c₁.arena.continues_addModel m), Obeys.addModel hJ hdraft⟩
    | none =>
      rw [liftChains_eq _ _ hkind] at h
      obtain ⟨es, c₁, hes, h⟩ := bind_ok h
      obtain ⟨-, rfl⟩ := Prod.mk.inj (Except.ok.inj h)
      exact liftChainsAll_upholds
        (fun child hchild c e' d h hc => ih child hchild c e' d h hc) hes hc

theorem start_upholds (hJ : OperatorInvariant J) (hp : Upholds J process) {root : Expr}
    (h : start process root c = .ok (m, d)) (hc : c.Obeys J) :
    c.arena.Continues d.arena ∧ Draft.Obeys J ⟨m, d⟩ := by
  have hnew : ∀ {c : Construction} {origin : Expr} {type : Option String}, c.Obeys J →
      (do
        let source ← addGenerated .mainFrom origin type
        pure (QueryModel.ofSource source)) c = .ok (m, d) →
      c.arena.Continues d.arena ∧ Draft.Obeys J ⟨m, d⟩ := by
    intro c origin type hc h
    obtain ⟨s, c₁, hs, h⟩ := bind_ok h
    obtain ⟨rfl, rfl⟩ := Prod.mk.inj (Except.ok.inj h)
    obtain ⟨rfl, rfl⟩ := Prod.mk.inj (Except.ok.inj hs)
    have hcont := c.arena.continues_addSource
      ⟨"<generated>_" ++ toString c.arena.sources.length, .mainFrom, origin, type⟩
    exact ⟨hcont, hc.later hJ rfl hcont, hJ.nil _⟩
  have hprocessed : (do
        let origin ← process root
        let source ← addGenerated .mainFrom origin none
        pure (QueryModel.ofSource source)) c = .ok (m, d) →
      c.arena.Continues d.arena ∧ Draft.Obeys J ⟨m, d⟩ := by
    intro h
    obtain ⟨origin, c₁, horigin, h⟩ := bind_ok h
    obtain ⟨hcont, hc₁⟩ := hp _ _ _ _ horigin hc
    obtain ⟨hcont', hdraft⟩ := hnew hc₁ h
    exact ⟨hcont.trans hcont', hdraft⟩
  unfold start at h
  split at h
  · exact hnew hc h
  · split at h
    · cases h
    · exact hprocessed h
  · exact hprocessed h

end Construction

namespace Builder

open Construction

variable {J : Arena → List ResultOperator → Prop} {b : Builder} {e : Expr} {limit : Nat}

theorem process_upholds (hJ : OperatorInvariant J) (b : Builder) {build : Expr → BuildM QueryModel}
    (hb : UpholdsModels J build) : Upholds J (b.process build) := by
  intro e c e' d h hc
  obtain ⟨e₁, c₁, hlift, h⟩ := bind_ok h
  have hlifted := liftChains_upholds hJ b.registry hb e c e₁ c₁ hlift hc
  generalize Pass.runAll b.passes e₁ = result at h
  split at h
  · obtain ⟨-, rfl⟩ := Prod.mk.inj (Except.ok.inj h)
    exact hlifted
  · cases h

theorem chain_upholds (hJ : OperatorInvariant J) (hp : Upholds J (b.processor limit)) :
    UpholdsModels J (b.buildChain limit) := by
  intro e c m d h hc
  rw [buildChain_eq] at h
  obtain ⟨m₀, c₀, hstart, h⟩ := bind_ok h
  obtain ⟨hcont, hdraft⟩ := start_upholds hJ hp hstart hc
  obtain ⟨entries, hrun, -⟩ := applyAll_records (b.processor_extending limit) h
  obtain ⟨hcont', hdraft'⟩ := hrun.obeys hJ hp hdraft
  exact ⟨hcont.trans hcont', hdraft'⟩

theorem processor_upholds (hJ : OperatorInvariant J) (b : Builder) (limit : Nat) :
    Upholds J (b.processor limit) := by
  induction limit with
  | zero => exact b.process_upholds hJ fun e c m d h => by cases h
  | succ limit ih => exact b.process_upholds hJ (chain_upholds hJ ih)

theorem build_obeys (hJ : OperatorInvariant J) {built : BuiltQuery}
    (hbuilt : b.build limit e = .ok built) :
    ∀ m ∈ built.arena.models, J built.arena m.operators := by
  obtain ⟨m, c, hchain, rfl⟩ := build_ok_iff.mp hbuilt
  have hempty : Obeys J ⟨.empty, []⟩ := by simp [Obeys, Arena.empty]
  obtain ⟨-, hdraft⟩ := chain_upholds hJ (b.processor_upholds hJ limit) e _ m c hchain hempty
  exact Obeys.addModel hJ hdraft

end Builder

end QueryTree
