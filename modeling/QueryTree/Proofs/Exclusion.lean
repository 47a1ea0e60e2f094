import QueryTree.Proofs.ClosedCompilation
import QueryTree.Proofs.DirectiveExtraction
import QueryTree.Proofs.LastingNodes
import QueryTree.Proofs.ParameterBinding
import QueryTree.Proofs.SideBySideRun

/-! What a policy excludes from early computation. Construction folds constants by the standard
policy, whatever policy parameters are extracted by. Calls and reads that the standard policy lists
are therefore found again in the conditions of the models; what only the policy of the extraction
lists may be computed after all. -/

namespace QueryTree

/-- An expression that is replaced by its value contains nothing that the policy excludes. -/
theorem Folder.excludes_of_value {f : Folder} {e : Expr} {v : Value} (h : f.value? e = some v) :
    ∀ n ∈ e.nodes, f.policy.excludes n = false := by
  intro n hn
  obtain ⟨hfoldable, -⟩ := value?_eq_some.mp h
  simp only [isFoldable, Policy.allowsAll, Bool.and_eq_true, List.all_eq_true] at hfoldable
  by_contra hexcluded
  have hallows := hfoldable.1.2 n hn
  rw [Policy.allows_of_excludes (Bool.not_eq_false _ ▸ hexcluded)] at hallows
  cases hallows

/-! ### Construction -/

namespace Construction

variable {r : Registry} {x : Method ⊕ Member} {passes : List Pass} {c d : Construction}

/-- Conditions of a chain are found in its model. -/
def BuildsConditions (r : Registry) (x : Method ⊕ Member) (build : Expr → BuildM QueryModel) :
    Prop :=
  ∀ e body c m d, body ∈ r.conditions e → body.Demands r x → build e c = .ok (m, d) →
    ∃ predicate, d.arena.Filtered m predicate ∧ d.arena.Carries r x predicate

/-- What an expression demands is found in what becomes of it. -/
def Supplies (r : Registry) (x : Method ⊕ Member) (process : Expr → BuildM Expr) : Prop :=
  ∀ e c e' d, e.Demands r x → process e c = .ok (e', d) → d.arena.Carries r x e'

variable {build : Expr → BuildM QueryModel} {process : Expr → BuildM Expr}

theorem liftChainsAll_carries (hgrows : TracksModels (.ofSelf r passes) build build)
    {es es' : List Expr}
    (h : ∀ e ∈ es, ∀ c e' d, e.Demands r x → liftChains r build e c = .ok (e', d) →
      d.arena.Carries r x e') (hok : liftChainsAll r build es c = .ok (es', d)) :
    List.Forall₂ (fun e e' => e.Demands r x → d.arena.Carries r x e') es es' := by
  induction es generalizing c es' with
  | nil =>
    obtain ⟨rfl, -⟩ := Prod.mk.inj (Except.ok.inj hok)
    exact .nil
  | cons e es ih =>
    rw [List.forall_mem_cons] at h
    obtain ⟨e₁, c₁, he, hok⟩ := bind_ok hok
    obtain ⟨es₁, c₂, hes, hok⟩ := bind_ok hok
    obtain ⟨rfl, rfl⟩ := Prod.mk.inj (Except.ok.inj hok)
    -- the other subexpressions only add to the arena
    have hlevel : Level c₁ c₁ := ⟨rfl, rfl, rfl⟩
    have hrest := liftChainsAll_beside
      (fun e (_ : e ∈ es) _ _ hlevel => liftChains_beside hgrows trivial hlevel) hlevel
    have hkeeps : c₁.arena.Keeps c₂.arena := (hrest.of_ok hes).2.2.2.grown.keeps
    exact .cons (fun hdemands => (h.1 c e₁ c₁ hdemands he).keep hkeeps) (ih h.2 hes)

theorem liftChains_carries (hb : BuildsConditions r x build)
    (hgrows : TracksModels (.ofSelf r passes) build build) {e e' : Expr} (he : e.Demands r x)
    (hok : liftChains r build e c = .ok (e', d)) : d.arena.Carries r x e' := by
  induction e using Expr.byChildren generalizing c e' d with
  | step e ih =>
    cases hkind : r.kind? e.strip with
    | some kind =>
      have hsome : (r.kind? e.strip).isSome = true := by simp [hkind]
      rw [liftChains_of_kind? _ _ hkind] at hok
      obtain ⟨m, c₁, hm, hok⟩ := bind_ok hok
      obtain ⟨id, c₂, hid, hok⟩ := bind_ok hok
      obtain ⟨rfl, rfl⟩ := Prod.mk.inj (Except.ok.inj hok)
      obtain ⟨rfl, rfl⟩ := Prod.mk.inj (Except.ok.inj hid)
      obtain ⟨body, hin, hbody⟩ := he.exists_condition hsome
      obtain ⟨predicate, hp, hcarries⟩ := hb e body c m c₁ hin hbody hm
      have hkeeps := (c₁.arena.extends_addModel m).keeps
      exact .subquery (by simp [Arena.model?]) (hp.keep hkeeps (.refl m)) (hcarries.keep hkeeps)
    | none =>
      rw [liftChains_eq _ _ hkind] at hok
      obtain ⟨es, c₁, hes, hok⟩ := bind_ok hok
      obtain ⟨rfl, rfl⟩ := Prod.mk.inj (Except.ok.inj hok)
      have hall :=
        liftChainsAll_carries hgrows (fun c hc _ _ _ hdemands hok => ih c hc hdemands hok) hes
      have hlen : es.length = e.children.length := hall.length_eq.symm
      cases he with
      | here hnamed he =>
        exact .here ((Expr.named?_withChildren hlen).trans hnamed) (he.withChildren hlen)
      | child he hc h =>
        obtain ⟨c', hc', hcarries⟩ := exists_of_forall₂ hall hc
        refine .child (he.withChildren hlen) ?_ (hcarries h)
        rwa [Expr.children_withChildren hlen]
      | chain hin _ =>
        have hsome := Registry.isSome_kind?_of_mem_conditions hin
        simp [hkind] at hsome

theorem filter_carries (hp : Supplies r x process) {m n : QueryModel} {method : Method}
    {arg body : Expr}
    {ps : List String} (hstrip : arg.strip = .lambda ps body) (hbody : body.Demands r x)
    (hok : filter process m method arg c = .ok (n, d)) :
    ∃ predicate, .filter predicate ∈ n.clauses ∧ d.arena.Carries r x predicate := by
  obtain ⟨lambda, c₁, hlambda, hok⟩ := bind_ok hok
  have hbodies : lambda.body = body := by
    simp only [lambdaArg, hstrip] at hlambda
    split at hlambda
    · obtain ⟨rfl, -⟩ := Prod.mk.inj (Except.ok.inj hlambda)
      rfl
    · cases hlambda
  obtain ⟨m₁, c₂, -, hok⟩ := bind_ok hok
  obtain ⟨predicate, c₃, hresolve, hok⟩ := bind_ok hok
  obtain ⟨rfl, rfl⟩ := Prod.mk.inj (Except.ok.inj hok)
  obtain ⟨-, c₄, -, hprocess⟩ := bind_ok hresolve
  have hdemands := hbodies ▸ hbody
  refine ⟨predicate, List.mem_append_right _ List.mem_cons_self, ?_⟩
  exact hp _ c₄ predicate c₃ (hdemands.substitute _) hprocess

end Construction

namespace Builder

open Construction

variable {b : Builder} {x : Method ⊕ Member} {build : Expr → BuildM QueryModel}
  (hpasses : ∀ a : Arena, ∀ pass ∈ b.passes, pass.Keeps (a.Carries b.registry x))

include hpasses

theorem process_supplies (hb : BuildsConditions b.registry x build)
    (hgrows : TracksModels (.ofSelf b.registry b.passes) build build) :
    Supplies b.registry x (b.process build) := by
  intro e c e' d he hok
  obtain ⟨e₁, c₁, hlift, hok⟩ := bind_ok hok
  have hcarries := liftChains_carries hb hgrows he hlift
  cases hrun : Pass.runAll b.passes e₁ with
  | error error =>
    rw [hrun] at hok
    cases hok
  | ok e₂ =>
    rw [hrun] at hok
    obtain ⟨rfl, rfl⟩ := Prod.mk.inj (Except.ok.inj hok)
    exact Pass.runAll_keeps (hpasses c₁.arena) hcarries hrun

/-- The operators before a condition do not matter, and those after it leave it in the model or on
its spine. -/
theorem assemble_conditions (hb : BuildsConditions b.registry x build)
    (hgrows : TracksModels (.ofSelf b.registry b.passes) build build) :
    BuildsConditions b.registry x (b.assemble build) := by
  intro e body c m d hin hbody hok
  obtain ⟨call, hcall, hcondition⟩ := List.mem_filterMap.mp hin
  obtain ⟨hkind, arg, ps, hargs, hstrip⟩ := OperatorCall.condition?_eq_some.mp hcondition
  have hp : Tracks (.ofSelf b.registry b.passes) (b.process build) (b.process build) :=
    process_tracks hgrows
  obtain ⟨earlier, later, hcalls⟩ := List.append_of_mem hcall
  obtain ⟨m₀, c₀, -, hok⟩ := bind_ok hok
  rw [hcalls, applyAll_append] at hok
  obtain ⟨m₁, c₁, -, hok⟩ := bind_ok hok
  obtain ⟨m₂, c₂, happly, hok⟩ := bind_ok hok
  have hfilter : filter (b.process build) m₁ call.method arg c₁ = .ok (m₂, c₂) := by
    simpa only [apply, hkind, hargs, oneArg, pure_bind] using happly
  obtain ⟨predicate, hclause, hcarries⟩ :=
    filter_carries (process_supplies hpasses hb hgrows) hstrip hbody hfilter
  have hstart : Advances (.ofSelf b.registry b.passes) false ⟨c₂, c₂, m₂⟩ m₂ m₂ c₂ c₂ :=
    .start ⟨rfl, rfl, rfl⟩ (.refl m₂) trivial
  have hlater := (applyAll_beside hp later (fun _ _ _ _ => trivial) hstart).of_ok hok
  exact ⟨predicate, hlater.rests.filtered hclause, hcarries.keep hlater.grown.keeps⟩

theorem buildChain_conditions (limit : Nat) :
    BuildsConditions b.registry x (b.buildChain limit) := by
  induction limit with
  | zero =>
    refine assemble_conditions hpasses ?_ fun _ _ _ _ _ => beside_throw
    intro e body c m d _ _ hok
    cases hok
  | succ limit ih => exact assemble_conditions hpasses ih (buildChain_tracks _ limit)

theorem build_conditions {limit : Nat} {e body : Expr} {built : BuiltQuery}
    (hin : body ∈ b.registry.conditions e) (hbody : body.Demands b.registry x)
    (hok : b.build limit e = .ok built) :
    ∃ m predicate, built.arena.model? built.root = some m ∧ built.arena.Filtered m predicate ∧
      built.arena.Carries b.registry x predicate := by
  obtain ⟨⟨m, c⟩, hchain, hok⟩ := bind_eq_ok.mp hok
  obtain rfl := Except.ok.inj hok
  obtain ⟨predicate, hp, hcarries⟩ :=
    buildChain_conditions hpasses limit e body ⟨.empty, []⟩ m c hin hbody hchain
  have hkeeps := (c.arena.extends_addModel m).keeps
  exact ⟨m, predicate, by simp [Arena.model?], hp.keep hkeeps (.refl m), hcarries.keep hkeeps⟩

end Builder

/-! ### Translation -/

theorem Arena.keeps_takeFrom (state : Arena × CompilationContext) (id : ModelId) :
    state.1.Keeps (AppliedDirective.takeFrom state id).1 where
  models k m hm := by
    rw [AppliedDirective.model?_takeFrom]
    split
    · exact ⟨m.bare, by rw [hm, Option.map_some], rfl, fun _ hp => hp⟩
    · exact ⟨m, hm, .refl m⟩
  origins s src hs := by
    refine ⟨src, ?_, rfl⟩
    rw [Arena.source?, AppliedDirective.sources_takeFrom]
    exact hs

theorem Arena.keeps_foldl_takeFrom (ids : List ModelId) (state : Arena × CompilationContext) :
    state.1.Keeps (ids.foldl AppliedDirective.takeFrom state).1 := by
  induction ids generalizing state with
  | nil => exact .refl _
  | cons id ids ih => exact (keeps_takeFrom state id).trans (ih _)

namespace Compiler

variable {c : Compiler} {registry : Registry}

theorem builder_keeps (c : Compiler) (registry : Registry) (a : Arena) {x : Method ⊕ Member}
    (hx : Policy.standard.names x = true) :
    ∀ pass ∈ (c.builder registry).passes, pass.Keeps (a.Carries registry x) := by
  intro pass hpass
  have hcases : pass = .normalize c.limit ∨ pass = .foldConstants (.standard c.ambient) := by
    simp only [builder, Builder.ofSettings] at hpass
    split at hpass <;> simp_all
  rcases hcases with rfl | rfl
  · exact Pass.normalize_keeps a registry c.limit
  · exact Pass.foldConstants_keeps a registry hx

theorem translate_conditions {x : Method ⊕ Member} (hx : Policy.standard.names x = true)
    {shape body : Expr} {query : TranslatedQuery} (hin : body ∈ registry.conditions shape)
    (hbody : body.Demands registry x) (hok : (c.translate registry shape).1 = .ok query) :
    ∃ m predicate, query.arena.model? query.root = some m ∧ query.arena.Filtered m predicate ∧
      query.arena.Carries registry x predicate := by
  obtain ⟨built, hbuild, harena, hroot⟩ := translate_moved hok
  obtain ⟨m, predicate, hm, hp, hcarries⟩ := Builder.build_conditions
    (fun a => c.builder_keeps registry a hx) hin hbody hbuild
  have hkeeps : built.arena.Keeps query.arena := by
    rw [harena]
    exact Arena.keeps_foldl_takeFrom (built.arena.postorder built.root).1
      (built.arena, .ofDefault c.settings.defaultTracking)
  obtain ⟨n, hn, hretains⟩ := hkeeps.models _ _ hm
  exact ⟨n, predicate, hroot ▸ hn, hp.keep hkeeps hretains, hcarries.keep hkeeps⟩

/-- What the standard policy excludes is not computed by a compilation, whatever policy its
extractor has. Construction folds constants last and by the standard policy, and no expression that
is replaced by its value contains anything this policy excludes. A call or read that the policy
lists is found again: if a condition that `Where` puts on the shape demands it, then a condition on
the items of the root carries it. The query may come from the cache, which other compilers may have
filled. -/
theorem compile_keeps_excluded {keyspace : Keyspace} {e : Expr} {store : ParameterStore}
    {cache : QueryCache} {compiled : CompiledQuery}
    (hcache : Filled (fun _ registry' => registry' = registry) cache)
    (hok : (c.compile registry keyspace e store cache).result = .ok compiled) :
    (∃ front, (front = [] ∨ front = [.normalize c.limit]) ∧
      (c.builder registry).passes = front ++ [.foldConstants (.standard c.ambient)]) ∧
    (∀ part v, (Folder.standard c.ambient).value? part = some v →
      ∀ n ∈ part.nodes, Policy.standard.excludes n = false) ∧
    ∃ shape, (c.prepare e store).1 = .ok shape ∧
      ∀ body ∈ registry.conditions shape, ∀ x, Policy.standard.names x = true →
        body.Demands registry x →
        ∃ m predicate, compiled.query.arena.model? compiled.query.root = some m ∧
          compiled.query.arena.Filtered m predicate ∧
          compiled.query.arena.Carries registry x predicate := by
  obtain ⟨shape, c', registry', hshape, rfl, htranslate⟩ := compile_translates hcache rfl hok
  refine ⟨?_, fun part v hv => Folder.excludes_of_value hv, shape, hshape, ?_⟩
  · simp only [builder, Builder.ofSettings]
    split
    · exact ⟨_, .inr rfl, rfl⟩
    · exact ⟨_, .inl rfl, rfl⟩
  · intro body hin x hx hbody
    exact translate_conditions hx hin hbody htranslate

/-- Orders with a code that has just been made up. -/
def freshOrders (customer : Expr) : Expr :=
  .filtered (.member customer ⟨"Customer", "Orders"⟩) (.lambda ["o"]
    (.eq (.member (.var "o") ⟨"Order", "Code"⟩) (.staticCall .newGuid [])))

/-- The active ones among the customers who have such orders. -/
def customersWithFreshOrders : Expr :=
  .filtered (.distinct (.filtered (.distinct (.entityQuery "Customer"))
      (.lambda ["c"] (.any (freshOrders (.var "c"))))))
    (.lambda ["c"] (.member (.var "c") ⟨"Customer", "Active"⟩))

/-- The condition is on the spine of the root, and the identifier is made up in a subquery of it. -/
theorem compile_keeps_excluded_freshOrders :
    ∃ compiled,
      (standardCompiler.compile .standard .sync customersWithFreshOrders [] .empty).result =
        .ok compiled ∧
      ∃ m predicate, compiled.query.arena.model? compiled.query.root = some m ∧
        compiled.query.arena.Filtered m predicate ∧
        compiled.query.arena.Carries .standard (.inl .newGuid) predicate := by
  have hbuilds : standardCompiler.buildsPlain .standard customersWithFreshOrders []
      (fun _ => true) = true := by decide +kernel
  obtain ⟨compiled, -, hcompiled, -⟩ := compile_of_buildsPlain .sync .empty hbuilds
  obtain ⟨-, -, shape, hshape, hconditions⟩ := compile_keeps_excluded .empty hcompiled
  have hprepare : (standardCompiler.prepare customersWithFreshOrders []).1 =
      .ok customersWithFreshOrders := rfl
  obtain rfl := Except.ok.inj (hshape.symm.trans hprepare)
  let code : Expr := .eq (.member (.var "o") ⟨"Order", "Code"⟩) (.staticCall .newGuid [])
  have hcode : code.Demands .standard (.inl .newGuid) := by
    have hall : ∀ n ∈ code.nodes, n.Lasting .standard := by decide
    exact Expr.demands_of_mem hall (by decide : Expr.staticCall .newGuid [] ∈ code.nodes) rfl
  have horders : (Expr.any (freshOrders (.var "c"))).Demands .standard (.inl .newGuid) :=
    .chain (by decide) hcode
  exact ⟨compiled, hcompiled, hconditions _ (by decide) _ (by decide) horders⟩

/-- Customers with a name in capital letters. -/
def capitalName : Expr :=
  .filtered (.entityQuery "Customer") (.lambda ["c"]
    (.eq (.member (.var "c") ⟨"Customer", "Name"⟩)
      (.call (.constant (.string "abc")) (.ofParts Owner.string "ToUpper" 0) [])))

/-- Parameters are extracted by a policy that keeps the method in the query. -/
def capitalKeeping : Compiler :=
  standardCompiler.withExtractor { standardCompiler.extractor with
    policy := Policy.standard.excludeMethod ⟨Owner.string, "ToUpper", 0⟩ }

/-- The policy of the extractor is not that of construction: the shape has a call that the policy
excludes, and construction computes it. -/
theorem compile_capitalName_folded :
    ∃ shape compiled, (capitalKeeping.prepare capitalName []).1 = .ok shape ∧
      (capitalKeeping.compile .standard .sync capitalName [] .empty).result = .ok compiled ∧
      (∃ body ∈ Registry.standard.conditions shape, body.All (Expr.Lasting .standard) ∧
        ∃ n ∈ body.nodes, n.named? = some (.inl (.ofParts Owner.string "ToUpper" 0)) ∧
          capitalKeeping.extractor.policy.excludes n = true) ∧
      ∀ part ∈ compiled.query.arena.expressions, ∀ n ∈ part.nodes,
        n.named? ≠ some (.inl (.ofParts Owner.string "ToUpper" 0)) := by
  have hbuilds : capitalKeeping.buildsPlain .standard capitalName [] (fun built =>
      built.arena.expressions.all fun part => part.nodes.all fun n =>
        n.named? ≠ some (.inl (.ofParts Owner.string "ToUpper" 0))) = true := rfl
  obtain ⟨compiled, built, hcompiled, halike, -, htest⟩ :=
    compile_of_buildsPlain .sync .empty hbuilds
  rw [halike.expressions] at htest
  refine ⟨capitalName, compiled, rfl, hcompiled, ?_, ?_⟩
  · let call : Expr := .call (.constant (.string "abc")) (.ofParts Owner.string "ToUpper" 0) []
    let body : Expr := .eq (.member (.var "c") ⟨"Customer", "Name"⟩) call
    have hlasting : ∀ n ∈ body.nodes, n.Lasting .standard := by decide
    have hcall : call ∈ body.nodes := by decide
    exact ⟨body, by decide, hlasting, call, hcall, rfl, by decide⟩
  · simpa only [List.all_eq_true, decide_eq_true_eq] using htest

end Compiler

end QueryTree
