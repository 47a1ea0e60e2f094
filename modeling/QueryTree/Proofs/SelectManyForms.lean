import QueryTree.Compilation
import QueryTree.Expr.Chain
import QueryTree.Proofs.IncludePlans
import QueryTree.Proofs.OperatorRecords
import QueryTree.Proofs.SourceNames
import QueryTree.Proofs.Substitution

/-! The two forms of `SelectMany`. Without a result lambda the items of the collection are selected,
and so they are if a result lambda returns its second parameter. Both forms make the same models
over the same sources. Only the second knows the entity type of the collection when the collection
is a query root. -/

namespace QueryTree

/-- The source with the entity type of its items if it goes over a query root. -/
def QuerySource.typedByRoot (src : QuerySource) : QuerySource :=
  { src with itemType := Construction.rootType? src.origin }

namespace Construction

variable {process : Expr → BuildM Expr} {m n : QueryModel} {c d : Construction}
  {method method' : Method} {f g : Expr} {x y : String}

/-- The method of a call is only named in errors. -/
theorem lambdaArg_of_lambdaArg {arity : Nat} {lambda : Lambda}
    (h : lambdaArg method arity f c = .ok (lambda, d)) (method' : Method) :
    lambdaArg method' arity f c = .ok (lambda, d) := by
  unfold lambdaArg at h ⊢
  generalize f.strip = stripped at h ⊢
  split at h
  · split at h
    next harity => simpa [harity] using h
    next => cases h
  · cases h

/-- A result lambda that returns its second parameter gives the items of the collection. -/
theorem bind_second (hprocess : ∀ s, process (.sourceRef s) = pure (.sourceRef s)) (item : Expr)
    (s : SourceId) : bind process ⟨[x, y], .var y⟩ [item, .sourceRef s] = pure (.sourceRef s) := by
  have hsecond : (Expr.var y).substitute (Bindings.ofPairs [(x, item), (y, .sourceRef s)]) =
      .sourceRef s := by
    simp [Expr.substitute, lookup_ofPairs]
  exact (congrArg process hsecond).trans (hprocess s)

/-- Both forms take the collection alike and add it as the last source. -/
theorem selectMany_forms (hprocess : ∀ s, process (.sourceRef s) = pure (.sourceRef s))
    (hresult : g.strip = .lambda [x, y] (.var y)) (method' : Method)
    (h : selectMany process m method f none c = .ok (n, d)) :
    ∃ (a : Arena) (src : QuerySource) (d' : Construction),
      src.kind = .additionalFrom ∧ src.itemType = none ∧ n.select = .sourceRef a.sources.length ∧
      d.arena = (a.addSource src).2 ∧
      selectMany process m method' f (some g) c = .ok (n, d') ∧
      d'.arena.anonymous = (a.addSource src.typedByRoot).2.anonymous := by
  obtain ⟨lambda, c₁, hlambda, h⟩ := bind_ok h
  obtain ⟨o, c₂, hnone, h⟩ := bind_ok h
  obtain ⟨rfl, rfl⟩ := Prod.mk.inj (Except.ok.inj hnone)
  obtain ⟨m₁, c₃, hposition, h⟩ := bind_ok h
  obtain ⟨origin, c₄, horigin, h⟩ := bind_ok h
  obtain ⟨rfl, rfl⟩ := Prod.mk.inj (Except.ok.inj h)
  have hsome : optionalLambda method' 2 (some g) = pure (some ⟨[x, y], .var y⟩) := by
    rw [optionalLambda, lambdaArg_of_strip 2 hresult rfl, pure_bind]
  -- Up to here the forms are alike. One now makes up a name for the source, the other takes that of
  -- the second parameter.
  let named : Construction :=
    { c₄ with arena := (c₄.arena.addSource ⟨y, .additionalFrom, origin, rootType? origin⟩).2 }
  have hnamed : addNamed y .additionalFrom origin c₄ = .ok (c₄.arena.sources.length, named) := rfl
  obtain ⟨d', hadopt, hnames⟩ := adoptParam_anonymous m₁ ⟨[x, y], .var y⟩ named
  refine ⟨c₄.arena, _, d', rfl, rfl, rfl, rfl, ?_, ?_⟩
  · rw [selectMany, bind_of_ok (lambdaArg_of_lambdaArg hlambda method'), hsome, pure_bind,
      bind_of_ok hposition, bind_of_ok horigin]
    change (addNamed y .additionalFrom origin >>= _) c₄ = _
    rw [bind_of_ok hnamed, bind_of_ok hadopt, bind_second hprocess, pure_bind]
    rfl
  · rw [hnames, Arena.anonymous_addSource, Arena.anonymous_addSource]
    rfl

end Construction

/-! ### Passes keep references -/

namespace Builder

open Construction

theorem runAll_sourceRef (registry : Registry) (settings : Settings) (limit : Nat)
    (ambient : Ambient) (s : SourceId) :
    Pass.runAll (ofSettings registry settings limit ambient).passes (.sourceRef s) =
      .ok (.sourceRef s) := by
  have hinvocations : Normal.invocations limit (.sourceRef s) = .ok (.sourceRef s) := by
    cases limit <;> rfl
  have hnormal : (Pass.normalize limit).run (.sourceRef s) = .ok (.sourceRef s) := by
    change (Normal.invocations limit (.sourceRef s) >>= _) = _
    rw [hinvocations]
    rfl
  rw [ofSettings]
  split
  · exact bind_eq_ok.mpr ⟨_, hnormal, rfl⟩
  · rfl

theorem processor_sourceRef {b : Builder}
    (hpasses : ∀ s, Pass.runAll b.passes (.sourceRef s) = .ok (.sourceRef s)) (limit : Nat)
    (s : SourceId) : b.processor limit (.sourceRef s) = pure (.sourceRef s) := by
  cases limit <;> simp [processor, process, liftChains, Registry.kind?, Expr.strip, hpasses]

end Builder

/-! ### The type of the items -/

namespace Arena

open Construction

theorem entityType?_of_itemType {a : Arena} {s : SourceId} {src : QuerySource} {type : String}
    (hs : a.source? s = some src) (htype : src.itemType = some type) :
    a.entityType? s = some type := by
  simp [entityType?, entityTypeFrom_eq a [] s, hs, htype]

/-- A query root is no source, so that no other source knows the type of its items. -/
theorem entityType?_of_root {a : Arena} {s : SourceId} {src : QuerySource} {type : String}
    (hs : a.source? s = some src) (hroot : rootType? src.origin = some type)
    (htype : src.itemType = none) : a.entityType? s = none := by
  have hexposed : a.exposedBy? src.origin = none := by
    unfold rootType? at hroot
    unfold exposedBy?
    generalize src.origin.strip = origin at hroot ⊢
    cases origin with
    | entityQuery entity => rfl
    | _ => cases hroot
  simp [entityType?, entityTypeFrom_eq a [] s, underlying?, hs, htype, hexposed]

end Arena

namespace Builder

open Construction

/-- The forms of `SelectMany` agree, but for one type. If a query flattens a collection and builds,
then it also builds with a result lambda that returns the items of the collection. The root and the
models are the same, and so are the sources up to their names, except that the last one, the
collection, gets the entity type of its query root. So the two agree if the collection is no query
root, and then the same includes are loaded. If it is one, the type of the items is lost without the
result lambda. -/
theorem build_selectMany_forms (registry : Registry) (settings : Settings) (limit depth : Nat)
    (ambient : Ambient) {method method' : Method} {source f g : Expr} {x y : String}
    {built : BuiltQuery} (hkind : registry.lookup method = some .selectMany)
    (hkind' : registry.lookup method' = some .selectMany)
    (hresult : g.strip = .lambda [x, y] (.var y))
    (hbuilt : (ofSettings registry settings limit ambient).build depth
      (.staticCall method [source, f]) = .ok built) :
    ∃ (built' : BuiltQuery) (a : Arena) (src : QuerySource) (m : QueryModel),
      (ofSettings registry settings limit ambient).build depth
        (.staticCall method' [source, f, g]) =
        .ok built' ∧
      built'.root = built.root ∧ built.arena = (a.addSource src).2 ∧
      built'.arena.anonymous = (a.addSource src.typedByRoot).2.anonymous ∧
      src.kind = .additionalFrom ∧ a.model? built.root = some m ∧
      m.select = .sourceRef a.sources.length ∧
      (rootType? src.origin = none → built'.arena.anonymous = built.arena.anonymous ∧
        ∀ root context find, Include.compile built'.arena root context find =
          Include.compile built.arena root context find) ∧
      ∀ entity, rootType? src.origin = some entity →
        built.arena.entityType? a.sources.length = none ∧
        built'.arena.entityType? a.sources.length = some entity := by
  obtain ⟨m, c, hchain, rfl⟩ := build_ok_iff.mp hbuilt
  rw [buildChain_operator _ depth hkind] at hchain
  obtain ⟨m₀, c₀, hsource, hchain⟩ := bind_ok hchain
  have hprocess := processor_sourceRef (runAll_sourceRef registry settings limit ambient) depth
  obtain ⟨a, src, d, hsrc, htype, hselect, harena, hform, hd⟩ :=
    selectMany_forms hprocess hresult method' hchain
  have hchain' : (ofSettings registry settings limit ambient).buildChain depth
      (.staticCall method' [source, f, g]) ⟨.empty, []⟩ = .ok (m, d) := by
    rw [buildChain_operator _ depth hkind', bind_of_ok hsource]
    exact hform
  have hmodels : d.arena.models = c.arena.models := by
    rw [harena]
    exact (Arena.mk.inj hd).1
  have hnames : (d.arena.addModel m).2.anonymous =
      ((a.addModel m).2.addSource src.typedByRoot).2.anonymous := by
    rw [Arena.anonymous_addModel, hd]
    rfl
  have hgrown : (c.arena.addModel m).2 = ((a.addModel m).2.addSource src).2 := by
    rw [harena]
    rfl
  refine ⟨_, (a.addModel m).2, src, m, build_ok_iff.mpr ⟨m, d, hchain', rfl⟩, by rw [hmodels],
    hgrown, hnames, hsrc, ?_, hselect, ?_, ?_⟩
  · simp [harena, Arena.model?, Arena.addModel, Arena.addSource]
  · intro hroot
    have hsame : src.typedByRoot = src := by
      rw [QuerySource.typedByRoot, hroot, ← htype]
    have halike : (d.arena.addModel m).2.anonymous = (c.arena.addModel m).2.anonymous := by
      rw [hnames, hgrown, hsame]
    exact ⟨halike, Include.compile_eq_of_anonymous halike⟩
  · intro entity hroot
    refine ⟨?_, ?_⟩
    · rw [hgrown]
      exact Arena.entityType?_of_root (by simp [Arena.source?_addSource]) hroot htype
    · rw [← Arena.entityType?_anonymous, hnames, Arena.entityType?_anonymous]
      have hlast : ((a.addModel m).2.addSource src.typedByRoot).2.source? a.sources.length =
          some src.typedByRoot := by
        simp [Arena.source?_addSource, Arena.addModel]
      exact Arena.entityType?_of_itemType hlast hroot

/-- The orders of all customers, by a navigation. -/
theorem build_selectMany_forms_orders :
    let b := ofSettings .standard .standard 8 ⟨⟨0, 0⟩, fun _ => .empty⟩
    let orders : Expr := .quote (.lambda ["c"] (.member (.var "c") ⟨"Customer", "Orders"⟩))
    ∃ built built',
      b.build 8 (.operator "SelectMany" (.entityQuery "Customer") [orders]) = .ok built ∧
      b.build 8 (.operator "SelectMany" (.entityQuery "Customer")
        [orders, .quote (.lambda ["c", "o"] (.var "o"))]) = .ok built' ∧
      built'.root = built.root ∧ built'.arena.anonymous = built.arena.anonymous ∧
      ∀ root context find, Include.compile built'.arena root context find =
        Include.compile built.arena root context find := by
  intro b orders
  have hroots :
      ((b.build 8 (.operator "SelectMany" (.entityQuery "Customer") [orders])).toOption.map
      fun built => built.arena.sources.getLast?.map (rootType? ·.origin)) = some (some none) := by
    decide +kernel
  obtain ⟨built, hbuilt, hlast⟩ := exists_of_toOption_map hroots
  have hthree : Registry.standard.lookup (Method.queryable "SelectMany" 3) = some .selectMany := by
    decide +kernel
  have hitems : (Expr.quote (.lambda ["c", "o"] (.var "o"))).strip =
      .lambda ["c", "o"] (.var "o") := rfl
  obtain ⟨built', a, src, m, hbuilt', hroot, harena, -, -, -, -, hsame, -⟩ :=
    build_selectMany_forms .standard .standard 8 8 ⟨⟨0, 0⟩, fun _ => .empty⟩
      (by decide +kernel) hthree
      hitems hbuilt
  have hnavigation : rootType? src.origin = none := by
    simpa [harena, Arena.addSource] using hlast
  exact ⟨built, built', hbuilt, hbuilt', hroot, hsame hnavigation⟩

/-- All orders, once for each customer. -/
def allOrders (name : String) (type : Option String) : Arena where
  models := [⟨0, [.additionalFrom 1], .sourceRef 1, []⟩]
  sources := [⟨"c", .mainFrom, .entityQuery "Customer", some "Customer"⟩,
    ⟨name, .additionalFrom, .entityQuery "Order", type⟩]

/-- Only with a result lambda can the customers of the orders be included. -/
theorem build_selectMany_forms_differ :
    let b := ofSettings .standard .standard 8 ⟨⟨0, 0⟩, fun _ => .empty⟩
    let orders : Expr := .quote (.lambda ["c"] (.entityQuery "Order"))
    let context : CompilationContext :=
      { CompilationContext.ofDefault .trackAll with directives := [⟨.includes ["Customer"], 1, 0⟩] }
    ∃ built built' compiled,
      b.build 8 (.operator "SelectMany" (.entityQuery "Customer") [orders]) = .ok built ∧
      b.build 8 (.operator "SelectMany" (.entityQuery "Customer")
        [orders, .quote (.lambda ["c", "o"] (.var "o"))]) = .ok built' ∧
      built'.arena.anonymous ≠ built.arena.anonymous ∧
      (Include.compile built.arena built.root context Include.shop.find?).1 =
        .error (.includeNotBindable "Customer") ∧
      (Include.compile built'.arena built'.root context Include.shop.find?).1 = .ok compiled := by
  intro b orders context
  have hone : ((b.build 8 (.operator "SelectMany" (.entityQuery "Customer") [orders])).toOption.map
      fun built => (built.arena, built.root)) = some (allOrders "<generated>_1" none, 0) := by
    decide +kernel
  have htwo : ((b.build 8 (.operator "SelectMany" (.entityQuery "Customer")
      [orders, .quote (.lambda ["c", "o"] (.var "o"))])).toOption.map
        fun built => (built.arena, built.root)) = some (allOrders "o" (some "Order"), 0) := by
    decide +kernel
  obtain ⟨⟨a, root⟩, hbuilt, hparts⟩ := exists_of_toOption_map hone
  obtain ⟨rfl, rfl⟩ := Prod.mk.inj hparts
  obtain ⟨⟨a', root'⟩, hbuilt', hparts⟩ := exists_of_toOption_map htwo
  obtain ⟨rfl, rfl⟩ := Prod.mk.inj hparts
  exact ⟨_, _, _, hbuilt, hbuilt', by decide, rfl, rfl⟩

end Builder

end QueryTree
