import QueryTree.Proofs.Cells
import QueryTree.Proofs.Compilation

/-! Histories of a cache of compiled queries. Whatever a cache holds was translated, at some time,
from the shape that it is held under; hence a successful compilation answers with the translation of
its own shape, be it by another compiler. -/

namespace QueryTree

namespace Cache

variable {K D E : Type} [DecidableEq K] {c : Cache K D} {space s : Keyspace} {key k : K} {d : D}

/-- A cell that is filled after a call was so before, or was filled with what the call compiled. -/
theorem get?_of_getOrAdd {compile : Cache K D → Except E D × Cache K D}
    (hcompile : ∀ c, (compile c).2 = c)
    (h : (c.getOrAdd space key compile).2.get? s k = some d) :
    c.get? s k = some d ∨
      ((s, k) = (space, key) ∧ (compile (c.reserve space key)).1 = .ok d) := by
  rw [get?_getOrAdd hcompile] at h
  split at h
  next heq =>
    obtain ⟨rfl, rfl⟩ := Prod.mk.inj heq
    rcases Option.or_eq_some_iff.mp h with hold | ⟨-, hnew⟩
    · exact .inl hold
    · cases hresult : (compile (c.reserve s k)).1 with
      | error error =>
        rw [hresult] at hnew
        cases hnew
      | ok compiled =>
        rw [hresult] at hnew
        obtain rfl : compiled = d := Option.some.inj hnew
        exact .inr ⟨rfl, rfl⟩
  next => exact .inl h

end Cache

namespace Compiler

/-- The caches that compilations by a group of compilers, each with a registry, can lead to. -/
inductive Filled (group : Compiler → Registry → Prop) : QueryCache → Prop where
  | empty : Filled group .empty
  | compile {cache : QueryCache} (h : Filled group cache) {c : Compiler} {registry : Registry}
      (hgroup : group c registry) (keyspace : Keyspace) (e : Expr) (store : ParameterStore) :
      Filled group (c.compile registry keyspace e store cache).cache
  | clear {cache : QueryCache} (h : Filled group cache) : Filled group cache.clear

variable {group : Compiler → Registry → Prop} {c : Compiler} {registry : Registry}
  {keyspace : Keyspace} {e shape : Expr} {store : ParameterStore} {cache : QueryCache}

theorem Filled.translated (h : Filled group cache) {key : QueryKey} {d : CompiledQuery}
    (hget : cache.get? keyspace key = some d) :
    ∃ c registry, group c registry ∧ (c.translate registry key.shape).1 = .ok d.query := by
  induction h with
  | empty => cases hget
  | clear h ih => cases hget
  | @compile cache h c registry hgroup space e store ih =>
    unfold Compiler.compile at hget
    rcases hprepare : c.prepare e store with ⟨error | shape, store'⟩
    · rw [hprepare] at hget
      exact ih hget
    · rw [hprepare] at hget
      rcases Cache.get?_of_getOrAdd (fun _ => rfl) hget with hold | ⟨hkey, hnew⟩
      · exact ih hold
      · obtain ⟨rfl, rfl⟩ := Prod.mk.inj hkey
        refine ⟨c, registry, hgroup, ?_⟩
        cases htranslate : (c.translate registry shape).1 with
        | error error =>
          simp only [htranslate] at hnew
          cases hnew
        | ok query =>
          simp only [htranslate] at hnew
          obtain rfl := Except.ok.inj hnew
          rfl

theorem builder_keepsNodes (c : Compiler) (registry : Registry) :
    ∀ pass ∈ (c.builder registry).passes, pass.KeepsNodes := by
  intro pass hpass
  simp only [builder, Builder.ofSettings] at hpass
  split at hpass
  · rcases List.mem_cons.mp hpass with rfl | hpass
    · exact Pass.normalize_keepsNodes _
    · obtain rfl := List.mem_singleton.mp hpass
      exact Pass.foldConstants_keepsNodes _
  · obtain rfl := List.mem_singleton.mp hpass
    exact Pass.foldConstants_keepsNodes _

theorem exists_normal (hok : (c.prepare e store).1 = .ok shape) :
    ∃ normal, (Pass.normalize c.limit).run e = .ok normal ∧
      c.prepare e store = c.extractor.extract normal store := by
  unfold prepare at hok ⊢
  cases hrun : (Pass.normalize c.limit).run e with
  | error error =>
    rw [hrun] at hok
    cases hok
  | ok normal => exact ⟨normal, rfl, rfl⟩

theorem compile_ok_of_translate {query : TranslatedQuery}
    (hshape : (c.prepare e store).1 = .ok shape)
    (hok : (c.translate registry shape).1 = .ok query) :
    ∃ compiled, (c.compile registry keyspace e store cache).result = .ok compiled := by
  rw [compile_result, hshape]
  change ∃ compiled, c.answer registry keyspace cache shape = .ok compiled
  simp only [answer, hok]
  cases Cache.get? _ keyspace (c.keyOf keyspace shape) with
  | some d => exact ⟨d, rfl⟩
  | none => exact ⟨_, rfl⟩

/-- A successful compilation answers with a translation of its shape. -/
theorem compile_translates (hcache : Filled group cache) (hgroup : group c registry)
    {compiled : CompiledQuery}
    (hok : (c.compile registry keyspace e store cache).result = .ok compiled) :
    ∃ shape c' registry', (c.prepare e store).1 = .ok shape ∧ group c' registry' ∧
      (c'.translate registry' shape).1 = .ok compiled.query := by
  rw [compile_result] at hok
  obtain ⟨shape, hshape, hanswer⟩ := bind_eq_ok.mp hok
  refine ⟨shape, ?_⟩
  simp only [answer, Cache.get?_reserve] at hanswer
  cases hcell : cache.get? keyspace (c.keyOf keyspace shape) with
  | some d =>
    rw [hcell, Option.elim_some] at hanswer
    obtain rfl := Except.ok.inj hanswer
    obtain ⟨c', registry', hgroup', htranslate⟩ := hcache.translated hcell
    exact ⟨c', registry', hshape, hgroup', htranslate⟩
  | none =>
    rw [hcell, Option.elim_none] at hanswer
    refine ⟨c, registry, hshape, hgroup, ?_⟩
    cases htranslate : (c.translate registry shape).1 with
    | error error =>
      rw [htranslate] at hanswer
      cases hanswer
    | ok query =>
      rw [htranslate] at hanswer
      obtain rfl := Except.ok.inj hanswer
      rfl

theorem compile_store :
    (c.compile registry keyspace e store cache).store = (c.prepare e store).2 := by
  unfold compile
  rcases c.prepare e store with ⟨error | shape, store'⟩ <;> rfl

/-- A translation is a built query whose directives have moved to the context. -/
theorem translate_moved {query : TranslatedQuery}
    (h : (c.translate registry shape).1 = .ok query) :
    ∃ built, (c.builder registry).build c.limit shape = .ok built ∧
      query.arena = ((built.arena.postorder built.root).1.foldl AppliedDirective.takeFrom
        (built.arena, .ofDefault c.settings.defaultTracking)).1 ∧ built.root = query.root := by
  unfold translate at h
  cases hbuild : (c.builder registry).build c.limit shape with
  | error error =>
    rw [hbuild] at h
    cases h
  | ok built =>
    rw [hbuild] at h
    refine ⟨built, rfl, ?_⟩
    simp only [AppliedDirective.extract_eq] at h
    cases hwalk : (built.arena.postorder built.root).2 with
    | some error =>
      simp only [hwalk, Option.elim_some] at h
      cases h
    | none =>
      simp only [hwalk, Option.elim_none] at h
      cases hincludes : (Include.compile _ built.root _ c.entities).1 with
      | error error =>
        rw [hincludes] at h
        cases h
      | ok includes =>
        rw [hincludes] at h
        obtain rfl := Except.ok.inj h
        exact ⟨rfl, rfl⟩

theorem translate_built {query : TranslatedQuery}
    (h : (c.translate registry shape).1 = .ok query) :
    ∃ built, (c.builder registry).build c.limit shape = .ok built ∧
      built.arena.Alike query.arena ∧ built.root = query.root := by
  obtain ⟨built, hbuild, harena, hroot⟩ := translate_moved h
  refine ⟨built, hbuild, ?_, hroot⟩
  rw [harena]
  exact Arena.alike_foldl_takeFrom (built.arena.postorder built.root).1
    (built.arena, .ofDefault c.settings.defaultTracking)

end Compiler

/-! ### Queries without directives -/

/-- Every operator of the model shapes its sequence. -/
def QueryModel.Plain (m : QueryModel) : Prop := ∀ op ∈ m.operators, op.isDirective = false

theorem QueryModel.Plain.directives {m : QueryModel} (h : m.Plain) (id : ModelId) :
    m.directives id = [] := by
  rw [QueryModel.directives, List.filterMap_eq_nil_iff]
  intro op hop
  have hplain := h op hop
  cases op with
  | tracking _ | tag _ | ignoreFilters | includes _ _ => cases hplain
  | _ => rfl

/-- A walk over models without directives leaves the context as it is. -/
theorem AppliedDirective.foldl_takeFrom_context (ids : List ModelId)
    {state : Arena × CompilationContext} (h : ∀ m ∈ state.1.models, m.Plain) :
    (ids.foldl takeFrom state).2 = state.2 := by
  induction ids generalizing state with
  | nil => rfl
  | cons id ids ih =>
    have hstep : (takeFrom state id).2 = state.2 ∧ ∀ m ∈ (takeFrom state id).1.models, m.Plain := by
      unfold takeFrom
      split
      · exact ⟨rfl, h⟩
      next m hm =>
        have hplain : m.Plain := h m (List.mem_of_getElem? hm)
        refine ⟨by simp [hplain.directives id], ?_⟩
        intro m' hm'
        rcases List.mem_or_eq_of_mem_set hm' with hm' | rfl
        · exact h m' hm'
        · intro op hop
          exact hplain op (List.mem_filter.mp hop).1
    rw [List.foldl_cons, ih hstep.2, hstep.1]

namespace Compiler

theorem translate_of_plain {c : Compiler} {registry : Registry} {shape : Expr} {built : BuiltQuery}
    (hbuild : (c.builder registry).build c.limit shape = .ok built) (hs : shape.sourceRefs = [])
    (hq : shape.subqueries = []) (hplain : ∀ m ∈ built.arena.models, m.Plain) :
    ∃ query, (c.translate registry shape).1 = .ok query := by
  have hsound := Builder.build_sound
    (Builder.ofSettings_keepsRefs registry c.settings c.limit c.ambient) c.limit hs hq
  rw [← builder, hbuild] at hsound
  obtain ⟨hsound, hlast, hclosed⟩ := hsound
  have hwalk := (hsound.wellFormed hlast hclosed).postorder
  have hcontext : ((built.arena.postorder built.root).1.foldl AppliedDirective.takeFrom
      (built.arena, .ofDefault c.settings.defaultTracking)).2 =
        .ofDefault c.settings.defaultTracking :=
    AppliedDirective.foldl_takeFrom_context _ hplain
  unfold translate
  simp only [hbuild, AppliedDirective.extract_eq, hwalk, Option.elim_none, hcontext]
  exact ⟨_, rfl⟩

/-- Whether a query is built without directives, into models that pass a test. -/
def buildsPlain (c : Compiler) (registry : Registry) (e : Expr) (store : ParameterStore)
    (test : BuiltQuery → Bool) : Bool :=
  match (c.prepare e store).1 with
  | .error _ => false
  | .ok shape =>
    shape.sourceRefs.isEmpty && shape.subqueries.isEmpty &&
      match (c.builder registry).build c.limit shape with
      | .error _ => false
      | .ok built => built.arena.models.all (·.operators.all (!·.isDirective)) && test built

/-- Such a query is translated, and its models are those that were built. -/
theorem translate_of_buildsPlain {c : Compiler} {registry : Registry} {e : Expr}
    {store : ParameterStore} {test : BuiltQuery → Bool}
    (h : c.buildsPlain registry e store test = true) :
    ∃ shape query built, (c.prepare e store).1 = .ok shape ∧
      (c.translate registry shape).1 = .ok query ∧ built.arena.Alike query.arena ∧
      built.root = query.root ∧ test built = true := by
  unfold buildsPlain at h
  cases hshape : (c.prepare e store).1 with
  | error error => simp [hshape] at h
  | ok shape =>
    cases hbuild : (c.builder registry).build c.limit shape with
    | error error => simp [hshape, hbuild] at h
    | ok built =>
      simp only [hshape, hbuild, Bool.and_eq_true, List.isEmpty_iff, List.all_eq_true,
        Bool.not_eq_true'] at h
      obtain ⟨⟨hs, hq⟩, hplain, htest⟩ := h
      obtain ⟨query, hquery⟩ := translate_of_plain hbuild hs hq hplain
      obtain ⟨built', hbuild', halike, hroot⟩ := translate_built hquery
      obtain rfl : built = built' := Except.ok.inj (hbuild.symm.trans hbuild')
      exact ⟨shape, query, built, rfl, hquery, halike, hroot, htest⟩

/-- It is compiled too, with whatever the same compiler has cached. -/
theorem compile_of_buildsPlain {c : Compiler} {registry : Registry} {e : Expr}
    {store : ParameterStore} {test : BuiltQuery → Bool} (keyspace : Keyspace) {cache : QueryCache}
    (hcache : Filled (fun c' registry' => c' = c ∧ registry' = registry) cache)
    (h : c.buildsPlain registry e store test = true) :
    ∃ compiled built, (c.compile registry keyspace e store cache).result = .ok compiled ∧
      built.arena.Alike compiled.query.arena ∧ built.root = compiled.query.root ∧
      test built = true := by
  obtain ⟨shape, query, built, hshape, hquery, halike, hroot, htest⟩ := translate_of_buildsPlain h
  have hok : ∃ compiled, (c.compile registry keyspace e store cache).result = .ok compiled :=
    compile_ok_of_translate hshape hquery
  obtain ⟨compiled, hcompiled⟩ := hok
  obtain ⟨shape', _, _, hshape', ⟨rfl, rfl⟩, htranslate⟩ :=
    compile_translates hcache ⟨rfl, rfl⟩ hcompiled
  obtain rfl : shape = shape' := Except.ok.inj (hshape.symm.trans hshape')
  obtain rfl : query = compiled.query := Except.ok.inj (hquery.symm.trans htranslate)
  exact ⟨compiled, built, hcompiled, halike, hroot, htest⟩

end Compiler

end QueryTree
