import QueryTree.Proofs.DirectiveExtraction
import QueryTree.Proofs.SideBySideRun

/-! Settings may stand anywhere in a chain: once directives have moved to the context, a chain with
settings has led to the same models as the chain without them. -/

namespace QueryTree

/-! ### Chains with settings -/

/-- The setting that a call makes. -/
def OperatorCall.setting? (call : OperatorCall) : Option ResultOperator :=
  match call.kind, call.args with
  | .tracking on, [] => some (.tracking on)
  | .ignoreFilters, [] => some .ignoreFilters
  | .tag, [arg] =>
    match arg.strip with
    | .constant (.string text) => some (.tag text)
    | _ => none
  | _, _ => none

/-- The second chain is the first one with calls put in that make settings. All calls of the chains
are known to the registry, and an entity type is at their root. -/
inductive Registry.Annotated (r : Registry) : Expr → Expr → Prop where
  | root (entity : String) : Annotated r (.entityQuery entity) (.entityQuery entity)
  | convert {e e' : Expr} (type : String) (h : Annotated r e e') :
      Annotated r (.unary (.convert type) e) (.unary (.convert type) e')
  | quote {e e' : Expr} (h : Annotated r e e') : Annotated r (.unary .quote e) (.unary .quote e')
  | operator {m : Method} {kind : OperatorKind} {e e' : Expr} (args : List Expr)
      (hkind : r.lookup m = some kind) (h : Annotated r e e') :
      Annotated r (.staticCall m (e :: args)) (.staticCall m (e' :: args))
  | setting {m : Method} {kind : OperatorKind} {op : ResultOperator} {e e' : Expr}
      {args : List Expr}
      (hkind : r.lookup m = some kind) (hop : OperatorCall.setting? ⟨m, kind, args⟩ = some op)
      (h : Annotated r e e') : Annotated r e (.staticCall m (e' :: args))

theorem Registry.Annotated.chain_root {r : Registry} {e e' : Expr} (h : r.Annotated e e') :
    ∃ entity, (r.chain e).1 = .entityQuery entity ∧ (r.chain e').1 = .entityQuery entity := by
  induction h with
  | root entity => exact ⟨entity, rfl, rfl⟩
  | convert type _ ih => exact ih
  | quote _ ih => exact ih
  | operator args hkind _ ih => simpa [Registry.chain, hkind] using ih
  | setting hkind _ _ ih => simpa [Registry.chain, hkind] using ih

namespace Construction

variable {process : Expr → BuildM Expr} {m m' : QueryModel} {c c' : Construction}

theorem apply_setting {call : OperatorCall} {op : ResultOperator} (h : call.setting? = some op)
    (process : Expr → BuildM Expr) (m : QueryModel) (c : Construction) :
    op.isSetting = true ∧ apply process m call c = .ok (m.addOperator op, c) := by
  obtain ⟨method, kind, args⟩ := call
  unfold OperatorCall.setting? at h
  split at h
  next on hkind hargs =>
    obtain ⟨rfl, rfl⟩ : kind = .tracking on ∧ args = [] := ⟨hkind, hargs⟩
    obtain rfl := Option.some.inj h
    exact ⟨rfl, rfl⟩
  next hkind hargs =>
    obtain ⟨rfl, rfl⟩ : kind = .ignoreFilters ∧ args = [] := ⟨hkind, hargs⟩
    obtain rfl := Option.some.inj h
    exact ⟨rfl, rfl⟩
  next arg hkind hargs =>
    obtain ⟨rfl, rfl⟩ : kind = .tag ∧ args = [arg] := ⟨hkind, hargs⟩
    split at h
    next text htext =>
      obtain rfl := Option.some.inj h
      refine ⟨rfl, ?_⟩
      change tagWith m method arg c = _
      unfold tagWith
      rw [htext]
      rfl
    next => cases h
  next => cases h

/-- The calls of both chains, one after the other; a setting is a step of one side only. -/
theorem applyAll_annotated {r : Registry} {passes : List Pass} {base : Base} {e e' : Expr}
    (hp : Tracks (.ofSelf r passes) process process) (h : r.Annotated e e')
    (hm : Advances (.ofSelf r passes) true base m m' c c') :
    Beside (applyAll process m (r.chain e).2) (applyAll process m' (r.chain e').2) c c'
      (Advances (.ofSelf r passes) true base) := by
  induction h with
  | root entity => exact beside_pure hm
  | convert type _ ih => exact ih
  | quote _ ih => exact ih
  | operator args hkind _ ih =>
    simp only [Registry.chain, hkind, applyAll_append]
    apply ih.bind
    intro n n' d d' hn
    exact applyAll_beside hp _ (fun _ _ _ _ => trivial) hn
  | @setting method kind op e e' args hkind hop _ ih =>
    simp only [Registry.chain, hkind, applyAll_append]
    rw [← bind_pure (applyAll process m (r.chain e).2)]
    apply ih.bind
    intro n n' d d' hn
    obtain ⟨hset, happly⟩ := apply_setting hop process n' d'
    have hright : applyAll process n' [⟨method, kind, args⟩] d' = .ok (n'.addOperator op, d') := by
      simp only [applyAll, bind_pure]
      exact happly
    unfold Beside
    rw [hright]
    exact hn.addSetting hset

end Construction

/-! ### Models with settings -/

namespace QueryModel.Like

variable {loose : Bool} {m m' : QueryModel}

theorem bare (h : m.Like loose m') : m'.bare = m.bare := by
  have hbare : ∀ ops : List ResultOperator, ops.filter (!·.isDirective) =
      (ops.filter (·.counts loose)).filter (!·.isDirective) := by
    intro ops
    rw [List.filter_filter]
    congr 1
    funext op
    cases op <;> simp [ResultOperator.counts, ResultOperator.isSetting, ResultOperator.isDirective]
  have hops : m'.bare.operators = m.bare.operators := by
    simp only [QueryModel.bare]
    rw [hbare, hbare m.operators, h.operators]
  obtain ⟨mainFrom, clauses, select, operators⟩ := m
  obtain ⟨mainFrom', clauses', select', operators'⟩ := m'
  obtain ⟨rfl, rfl, rfl, -⟩ := h
  simpa [QueryModel.bare] using hops

theorem scopeParts (h : m.Like loose m') : Arena.scopeParts m' = Arena.scopeParts m := by
  rw [← Arena.scopeParts_bare m', ← Arena.scopeParts_bare m, h.bare]

end QueryModel.Like

namespace Arena

/-- Arenas of two queries whose models are alike; models that differ are the roots or on their
spine. -/
structure Twin (root : ModelId) (a a' : Arena) : Prop where
  sources : a'.sources = a.sources
  models : List.Forall₂ (QueryModel.Like true) a.models a'.models
  spine : ∃ m, a.model? root = some m ∧
    ∀ k, a'.model? k ≠ a.model? k → k = root ∨ a.Underlies m.mainFrom k

variable {a a' : Arena} {root : ModelId}

theorem Twin.map_models (h : Twin root a a') {β : Type} {f : QueryModel → β}
    (hf : ∀ m m', QueryModel.Like true m m' → f m = f m') : a.models.map f = a'.models.map f := by
  rw [← List.forall₂_eq_eq_eq, List.forall₂_map_left_iff, List.forall₂_map_right_iff]
  exact h.models.imp fun m m' hlike => hf m m' hlike

theorem Twin.alike (h : Twin root a a') : a.Alike a' :=
  ⟨h.sources.symm, h.map_models fun _ _ hlike => hlike.scopeParts.symm⟩

theorem Twin.bare (h : Twin root a a') (k : ModelId) :
    (a'.model? k).map QueryModel.bare = (a.model? k).map QueryModel.bare := by
  have hmap : a.models.map QueryModel.bare = a'.models.map QueryModel.bare :=
    h.map_models fun _ _ hlike => hlike.bare.symm
  simpa [Arena.model?] using congrArg (fun models => models[k]?) hmap.symm

/-- A model that differs is met by the walk from the root, if that does not break off. -/
theorem Twin.eq_of_not_mem (h : Twin root a a') (hok : (a.postorder root).2 = none) {k : ModelId}
    (hk : k ∉ (a.postorder root).1) : a'.model? k = a.model? k := by
  have hids := postorder_of_none hok
  obtain ⟨m, hroot, hspine⟩ := h.spine
  by_contra hne
  refine hk ((hids.mem_iff k).mpr ?_)
  rcases hspine k hne with rfl | hunder
  · exact .refl k
  · exact hunder.reaches hroot fun i hi => hids.readable i ((hids.mem_iff i).mpr hi)

theorem Twin.foldl_takeFrom (h : Twin root a a') (hok : (a.postorder root).2 = none)
    (context context' : CompilationContext) :
    ((a.postorder root).1.foldl AppliedDirective.takeFrom (a', context')).1 =
      ((a.postorder root).1.foldl AppliedDirective.takeFrom (a, context)).1 := by
  have hnodup := (postorder_of_none hok).nodup
  apply congrArg₂ Arena.mk
  · apply List.ext_getElem?
    intro k
    have hleft := AppliedDirective.model?_foldl_takeFrom hnodup (a', context') k
    have hright := AppliedDirective.model?_foldl_takeFrom hnodup (a, context) k
    refine hleft.trans (Eq.trans ?_ hright.symm)
    by_cases hk : k ∈ (a.postorder root).1
    · rw [if_pos hk, if_pos hk]
      exact h.bare k
    · rw [if_neg hk, if_neg hk]
      exact h.eq_of_not_mem hok hk
  · have hsources := AppliedDirective.sources_foldl_takeFrom (a.postorder root).1
    exact (hsources (a', context')).trans (h.sources.trans (hsources (a, context)).symm)

end Arena

theorem Construction.Advances.twin {r r' : Registry} {passes : List Pass} {A : Accord r r' passes}
    {base : Base} {m m' : QueryModel} {c c' : Construction} (h : Advances A true base m m' c c')
    (hfirst : base.first.arena.models = []) (hsecond : base.second.arena.models = []) :
    Arena.Twin c.arena.models.length (c.arena.addModel m).2 (c'.arena.addModel m').2 := by
  obtain ⟨added, added', hc, hc', hlike⟩ := h.models
  rw [hfirst, List.nil_append] at hc
  rw [hsecond, List.nil_append] at hc'
  refine ⟨h.level.sources, ?_, m, by simp [Arena.addModel, Arena.model?], fun k hne => ?_⟩
  · simp only [Arena.addModel, hc, hc']
    exact List.rel_append hlike (.cons h.like .nil)
  · by_cases hk : k = c.arena.models.length
    · exact .inl hk
    · refine .inr ((h.spine k (by simp [hfirst]) fun heq => hne ?_).extend
        (c.arena.extends_addModel m))
      exact getElem?_append_cons h.level.length hk heq

/-! ### Queries with settings -/

namespace Builder

open Construction

/-- The models of a query once its directives have moved to the context. -/
def buildBare (b : Builder) (limit : Nat) (e : Expr) (context : CompilationContext) :
    Except Error BuiltQuery := do
  let built ← b.build limit e
  let (result, arena, _) := AppliedDirective.extract built.root (built.arena, context)
  result
  .ok ⟨arena, built.root⟩

variable {b : Builder} {e e' : Expr}

theorem build_annotated (limit : Nat) (h : b.registry.Annotated e e') :
    (∃ error, b.build limit e = .error error ∧ b.build limit e' = .error error) ∨
      ∃ a a' root, b.build limit e = .ok ⟨a, root⟩ ∧ b.build limit e' = .ok ⟨a', root⟩ ∧
        Arena.Twin root a a' := by
  obtain ⟨entity, hroot, hroot'⟩ := h.chain_root
  let A : Accord b.registry b.registry b.passes := .ofSelf _ _
  let empty : Construction := ⟨.empty, []⟩
  let first : Construction :=
    ⟨⟨[], [⟨"<generated>_" ++ toString 0, .mainFrom, .entityQuery entity, some entity⟩]⟩, [0]⟩
  have hp : Tracks A (b.processor limit) (b.processor limit) := processor_tracks A limit
  have hchain : Beside (b.buildChain limit e) (b.buildChain limit e') empty empty
      (Advances A true ⟨first, first, .ofSource 0⟩) := by
    have hstart : Beside (start (b.processor limit) (.entityQuery entity))
        (start (b.processor limit) (.entityQuery entity)) empty empty fun m m' d d' =>
          m = .ofSource 0 ∧ m' = .ofSource 0 ∧ d = first ∧ d' = first := ⟨rfl, rfl, rfl, rfl⟩
    rw [buildChain_eq, buildChain_eq, hroot, hroot']
    apply hstart.bind
    rintro _ _ _ _ ⟨rfl, rfl, rfl, rfl⟩
    exact applyAll_annotated hp h (.start ⟨rfl, rfl, rfl⟩ (.refl _) trivial)
  unfold Beside at hchain
  simp only [build, StateT.run]
  split at hchain
  next m d m' d' hleft hright =>
    rw [hleft, hright]
    refine .inr ⟨_, _, d.arena.models.length, rfl, ?_, hchain.twin rfl rfl⟩
    change Except.ok (⟨(d'.arena.addModel m').2, d'.arena.models.length⟩ : BuiltQuery) = _
    rw [hchain.level.length]
  next error error' hleft hright =>
    rw [hleft, hright, hchain]
    exact .inl ⟨error', rfl, rfl⟩
  next => exact hchain.elim

/-- Settings never change the query: a chain of known operators over an entity type, with calls for
settings put in at any places, is built and freed of its directives with the same outcome as the
plain chain. Both fail with one error, or both give the same models, sources and root. -/
theorem buildBare_annotated (b : Builder) (limit : Nat) {e e' : Expr}
    (h : b.registry.Annotated e e') (context context' : CompilationContext) :
    b.buildBare limit e' context' = b.buildBare limit e context := by
  unfold buildBare
  rcases build_annotated limit h with ⟨error, he, he'⟩ | ⟨a, a', root, he, he', htwin⟩
  · rw [he, he']
    rfl
  · have hwalk : a'.postorder root = a.postorder root := (htwin.alike.postorderFrom _ _).symm
    rw [he, he']
    change (do
      let (result, arena, _) := AppliedDirective.extract root (a', context')
      result
      Except.ok (BuiltQuery.mk arena root)) = (do
      let (result, arena, _) := AppliedDirective.extract root (a, context)
      result
      Except.ok (BuiltQuery.mk arena root))
    simp only [AppliedDirective.extract_eq, hwalk]
    cases hok : (a.postorder root).2 with
    | some error => rfl
    | none => simp only [htwin.foldl_takeFrom hok context context']

/-- Directives can be moved out of every query that is built from an expression without
references. -/
theorem buildBare_of_build {built : BuiltQuery} {limit : Nat}
    (hpasses : ∀ p ∈ b.passes, p.KeepsRefs)
    (hs : e.sourceRefs = []) (hq : e.subqueries = []) (hb : b.build limit e = .ok built)
    (context : CompilationContext) : ∃ bare, b.buildBare limit e context = .ok bare := by
  have hsound := build_sound hpasses limit hs hq
  rw [hb] at hsound
  obtain ⟨hsound, hlast, hclosed⟩ := hsound
  have hwalk := (hsound.wellFormed hlast hclosed).postorder
  have hextract : (AppliedDirective.extract built.root (built.arena, context)).1 = .ok () := by
    simp only [AppliedDirective.extract_eq, hwalk, Option.elim_none]
  exact ⟨_, bind_eq_ok.mpr ⟨built, hb, bind_eq_ok.mpr ⟨(), hextract, rfl⟩⟩⟩

/-- Active customers among the first five; the condition ranges over a subquery. -/
def activeCustomers : Expr :=
  .staticCall (.queryable "Where" 2)
    [.staticCall (.queryable "Take" 2) [.entityQuery "Customer", .constant (.int 5)],
      .lambda ["c"] (.member (.var "c") ⟨"Customer", "Active"⟩)]

/-- The same with settings at the root, in the middle and at the end. -/
def annotatedCustomers : Expr :=
  .staticCall .ignoreQueryFilters [.staticCall (.queryable "Where" 2)
    [.staticCall .tagWith [.staticCall (.queryable "Take" 2)
      [.staticCall .asNoTracking [.entityQuery "Customer"], .constant (.int 5)],
      .constant (.string "first")],
      .lambda ["c"] (.member (.var "c") ⟨"Customer", "Active"⟩)]]

theorem buildBare_annotated_activeCustomers :
    let b : Builder := .standard .standard 8 ⟨⟨0, 0⟩, fun _ => .empty⟩
    b.registry.Annotated activeCustomers annotatedCustomers ∧
      ∃ built, b.buildBare 8 activeCustomers (.ofDefault .trackAll) = .ok built ∧
        b.buildBare 8 annotatedCustomers (.ofDefault .trackAll) = .ok built := by
  intro b
  have hannotated : b.registry.Annotated activeCustomers annotatedCustomers := by
    refine .setting rfl rfl (.operator _ rfl ?_)
    refine .setting rfl rfl (.operator _ rfl ?_)
    exact .setting rfl rfl (.root "Customer")
  have hok : (b.build 8 activeCustomers).isOk = true := rfl
  cases hbuild : b.build 8 activeCustomers with
  | error error =>
    rw [hbuild] at hok
    cases hok
  | ok built =>
    obtain ⟨bare, hbare⟩ := buildBare_of_build (standard_keepsRefs .standard 8 _)
      (by decide) (by decide) hbuild (.ofDefault .trackAll)
    refine ⟨hannotated, bare, hbare, ?_⟩
    rw [← hbare]
    exact buildBare_annotated b 8 hannotated (.ofDefault .trackAll) (.ofDefault .trackAll)

end Builder

end QueryTree
