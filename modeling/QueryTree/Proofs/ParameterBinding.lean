import QueryTree.Proofs.CompileHistory
import QueryTree.Proofs.ConstructionResult
import QueryTree.Proofs.ParameterRun
import QueryTree.Proofs.ShapeSharing

/-! Parameters and their bindings. The names of a store tell the positions of its entries, so an
extraction never replaces an entry, and every parameter of a compiled query is bound in the store
that its compilation leaves, even if the query itself was compiled for another store. -/

namespace QueryTree

open QueryTree.Expr

/-- A node that, if it is a parameter, has one of some names. -/
def Expr.Named (names : List String) (n : Expr) : Prop := ∀ name, n = .parameter name → name ∈ names

theorem Expr.named_rule (names : List String) : PassRule (Named names) where
  constant _ _ _ h := nomatch h
  var _ _ h := nomatch h
  unary _ _ _ _ h := nomatch h
  binary _ _ _ _ _ h := nomatch h
  lambda _ _ _ _ h := nomatch h
  conditional _ _ _ _ _ h := nomatch h
  member _ _ _ _ _ _ h := nomatch h
  call _ _ _ _ _ _ _ _ _ h := nomatch h
  staticCall _ _ _ _ _ _ _ h := nomatch h
  invoke _ _ _ _ _ _ _ _ h := nomatch h
  comparison _ _ _ _ _ _ _ _ _ _ h := nomatch h

/-- The expressions of the models of an arena and the sequences of its sources. -/
def Arena.expressions (a : Arena) : List Expr :=
  a.models.flatMap (·.expressions) ++ a.sources.map (·.origin)

theorem Arena.Alike.expressions {a a' : Arena} (h : a.Alike a') :
    a.expressions = a'.expressions := by
  have hmodels : a.models.map (·.expressions) = a'.models.map (·.expressions) := by
    have hsecond := congrArg (List.map Prod.snd) h.models
    rw [List.map_map, List.map_map] at hsecond
    exact hsecond
  unfold Arena.expressions
  rw [h.sources, List.flatMap_def, List.flatMap_def, hmodels]

namespace Extractor

/-- An expression that an extraction replaces by a parameter, somewhere. -/
def Parameterized (x : Extractor) (e t : Expr) : Prop :=
  ∃ site ∈ x.sites false false e,
    x.parameterizes site.inLambda site.literal site.root = true ∧ site.root = t

variable {x : Extractor} {e : Expr} {store : ParameterStore}

/-- An extraction appends to the store one entry for each distinct expression that it replaces by a
parameter; one that fails has replaced only some of them. -/
theorem extract_appends (hstore : store.Numbered) :
    ∃ roots added, (x.extract e store).2 = store ++ added ∧ roots.Nodup ∧
      List.Forall₂ (fun root entry => x.bindingOf root = .ok entry.2) roots added ∧
      (∀ t ∈ roots, x.Parameterized e t) ∧
      ((∃ e', (x.extract e store).1 = .ok e') → ∀ t, x.Parameterized e t → t ∈ roots) := by
  have hbuilt := placements_built (x := x) e hstore
  obtain ⟨added, hadded, hbinds⟩ := hbuilt.added
  refine ⟨(x.placements e store).2.roots, added, ?_, hbuilt.nodup, ?_, ?_, ?_⟩
  · rw [extract_eq]
    exact hadded
  · unfold Extraction.roots
    rw [List.forall₂_map_left_iff]
    exact hbinds.imp fun _ _ h => h.binding
  · exact fun t ht => exists_site_of_mem_roots ht
  · rintro ⟨e', he'⟩ t ⟨site, hsite, hp, rfl⟩
    exact (placed_of_ok (eq_shape_of_extract he').1).mem_roots hsite hp

/-- The parameters of the result of an extraction are bound in the store that it leaves. -/
theorem extract_named (hstore : store.Numbered) (he : e.All (Named [])) {e' : Expr}
    (hok : (x.extract e store).1 = .ok e') : e'.All (Named (x.extract e store).2.names) := by
  have hnone : e.Throughout (fun _ => Named (x.extract e store).2.names) [] :=
    throughout_iff_all.mpr (he.mono fun n hn name h => nomatch hn name h)
  have hall : e'.Throughout (fun _ => Named (x.extract e store).2.names) [] := by
    apply extract_throughout (named_rule _).toHeadRule hnone _ hok
    intro scope root name hknown name' hname
    obtain rfl : name = name' := Expr.parameter.inj hname
    obtain ⟨binding, _, hlookup⟩ := (placements_built (x := x) e hstore).lookup_eq hknown
    rw [extract_eq]
    exact List.mem_map_of_mem (mem_of_lookup hlookup)
  exact throughout_iff_all.mp hall

end Extractor

theorem ParameterStore.exists_lookup {store : ParameterStore} {name : String}
    (h : name ∈ store.names) : ∃ binding, store.lookup name = some binding := by
  obtain ⟨entry, hentry, rfl⟩ := List.mem_map.mp h
  rw [← Option.isSome_iff_exists, List.lookup_isSome_iff]
  exact ⟨entry, hentry, beq_self_eq_true _⟩

namespace Compiler

variable {c : Compiler} {registry : Registry} {e shape : Expr} {store : ParameterStore}

theorem prepare_named (hstore : store.Numbered) (he : e.All (Named []))
    (hok : (c.prepare e store).1 = .ok shape) : shape.All (Named (c.prepare e store).2.names) := by
  have hkeeps := (Pass.normalize_keepsNodes c.limit).all (named_rule []) he
  obtain ⟨normal, hrun, heq⟩ := exists_normal hok
  rw [hrun] at hkeeps
  rw [heq] at hok ⊢
  exact Extractor.extract_named hstore hkeeps hok

theorem translate_named {names : List String} {query : TranslatedQuery}
    (he : shape.All (Named names)) (hok : (c.translate registry shape).1 = .ok query) :
    ∀ e ∈ query.arena.expressions, e.All (Named names) := by
  obtain ⟨built, hbuilt, halike, _⟩ := translate_built hok
  have hall :=
    Builder.build_all (named_rule names) (fun _ _ h => nomatch h) (fun _ _ h => nomatch h)
    (c.builder_keepsNodes registry) he hbuilt
  rw [← halike.expressions]
  intro e he
  rcases List.mem_append.mp he with he | he
  · obtain ⟨m, hm, hin⟩ := List.mem_flatMap.mp he
    exact hall.1 m hm e hin
  · obtain ⟨src, hsrc, rfl⟩ := List.mem_map.mp he
    exact hall.2 src hsrc

/-- In a store that only extractions have added to, names tell positions and no two agree. Every
further extraction, be it successful or not, appends one entry for each distinct expression that it
replaces by a parameter, and leaves the other entries as they are. If a query without parameters is
compiled with such a store, whatever was cached before by whatever compilers, then all parameters in
the models and sources of the result are bound in the store. -/
theorem compile_parameters_bound {store : ParameterStore} (hstore : store.Extracted) :
    (∀ (i : Nat) (name : String) (binding : Binding), store[i]? = some (name, binding) →
      ∃ base, name = base ++ "_" ++ toString i) ∧
    store.names.Nodup ∧
    (∀ (x : Extractor) (e : Expr), ∃ roots added,
      (x.extract e store).2 = store ++ added ∧ roots.Nodup ∧
      List.Forall₂ (fun root entry => x.bindingOf root = .ok entry.2) roots added ∧
      (∀ t ∈ roots, x.Parameterized e t) ∧
      ((∃ e', (x.extract e store).1 = .ok e') → ∀ t, x.Parameterized e t → t ∈ roots)) ∧
    ∀ (c : Compiler) (registry : Registry) (keyspace : Keyspace) (e : Expr) (cache : QueryCache)
      (compiled : CompiledQuery), Filled (fun _ _ => True) cache →
      (∀ name, .parameter name ∉ e.nodes) →
      (c.compile registry keyspace e store cache).result = .ok compiled →
      ∀ held ∈ compiled.query.arena.expressions, ∀ name, .parameter name ∈ held.nodes →
        ∃ binding,
          (c.compile registry keyspace e store cache).store.lookup name = some binding := by
  have hnumbered : store.Numbered := hstore.numbered
  refine ⟨hnumbered, hnumbered.names_nodup, fun x e => Extractor.extract_appends hnumbered, ?_⟩
  intro c registry keyspace e cache compiled hcache hnone hok held hheld name hname
  obtain ⟨shape, c', registry', hshape, _, htranslate⟩ := compile_translates hcache trivial hok
  have he : e.All (Named []) := by
    intro n hn name heq
    exact absurd (heq ▸ hn) (hnone name)
  have hnamed := prepare_named hnumbered he hshape
  have hin := translate_named hnamed htranslate held hheld (.parameter name) hname name rfl
  rw [compile_store]
  exact ParameterStore.exists_lookup hin

/-- A store with the parameters of an earlier extraction. -/
def firstStore : ParameterStore :=
  (standardCompiler.extractor.extract (adults firstCapture) []).2

/-- A cache with a query that was compiled for another capture. -/
def firstCache : QueryCache :=
  (standardCompiler.compile .standard .sync (adults firstCapture) firstStore .empty).cache

/-- With the cache filled for the first capture and the store filled before, the second capture is
compiled, and the parameter in its predicate is bound. -/
theorem compile_parameters_bound_second :
    ∃ compiled, (standardCompiler.compile .standard .sync (adults secondCapture) firstStore
        firstCache).result = .ok compiled ∧
      ∃ held ∈ compiled.query.arena.expressions, .parameter "__limit_2" ∈ held.nodes ∧
        ∃ binding, (standardCompiler.compile .standard .sync (adults secondCapture) firstStore
          firstCache).store.lookup "__limit_2" = some binding := by
  have hstore : firstStore.Extracted := .extract _ _ .empty
  have hcache : ∀ group : Compiler → Registry → Prop, group standardCompiler .standard →
      Filled group firstCache := fun group hgroup => .compile .empty hgroup _ _ _
  have hnone : ∀ name, .parameter name ∉ (adults secondCapture).nodes := by
    intro name
    simp [adults, nodes, nodesOf, Expr.and]
  have hbuilds : standardCompiler.buildsPlain .standard (adults secondCapture) firstStore
      (fun built => built.arena.expressions.any fun held =>
        decide (.parameter "__limit_2" ∈ held.nodes))
        = true := by decide +kernel
  obtain ⟨compiled, built, hcompiled, halike, _, htest⟩ :=
    compile_of_buildsPlain .sync (hcache _ ⟨rfl, rfl⟩) hbuilds
  simp only [List.any_eq_true, decide_eq_true_eq] at htest
  obtain ⟨held, hheld, hname⟩ := htest
  rw [halike.expressions] at hheld
  obtain ⟨_, _, _, hbound⟩ := compile_parameters_bound hstore
  exact ⟨compiled, hcompiled, held, hheld, hname, hbound _ _ _ _ _ compiled (hcache _ trivial) hnone
    hcompiled held hheld "__limit_2" hname⟩

end Compiler

end QueryTree
