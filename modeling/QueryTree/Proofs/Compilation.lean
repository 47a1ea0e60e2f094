import QueryTree.Compilation
import QueryTree.Proofs.DirectiveOrder
import QueryTree.Proofs.Extraction
import QueryTree.Proofs.Limit

/-! Errors of a compilation. In a well-formed arena the sources of the result are all there; hence
no step after construction meets a reference that leads nowhere, and only a faulty query is
refused. -/

namespace QueryTree

namespace Arena

variable {a b : Arena} {root k d : ModelId} {s r : SourceId} {m : QueryModel} {e : Expr}
  {path : List ModelId}

/-! ### Sources of the result -/

/-- A model that the root leads to. -/
def Reaches (a : Arena) (root k : ModelId) : Prop := ∃ path, a.Path root path k

/-- A source of a model that the root leads to. -/
def Met (a : Arena) (root : ModelId) (s : SourceId) : Prop :=
  ∃ k, a.Reaches root k ∧ a.Declares k s

theorem Path.reaches_of_mem (hp : a.Path root path k) (hd : d ∈ path) : a.Reaches root d := by
  induction hp with
  | start =>
    obtain rfl := List.mem_singleton.mp hd
    exact ⟨_, .start⟩
  | step hp hr ih =>
    rcases List.mem_cons.mp hd with rfl | hd
    · exact ⟨_, hp.step hr⟩
    · exact ih hd

/-- The walk over sources stays among the models that the root leads to: what such a model holds
refers only to them and to their sources. -/
theorem WellFormed.met (h : a.WellFormed root) (hk : a.Reaches root k) (hm : a.model? k = some m)
    (he : a.Holds m e) : e.RefsIn (a.Met root) (a.Reaches root) := by
  obtain ⟨path, hp⟩ := hk
  obtain ⟨es, hes, hrefs⟩ := h.expressions hp
  have hin : e ∈ es := (mem_modelExpressions hm hes).mpr he
  refine Expr.refsIn_iff.mpr ⟨fun s hs => ?_, fun j hj => ?_⟩
  · obtain ⟨d, hd, hon⟩ := h.enclosed k s ⟨path, hp⟩ ⟨es, hes, e, hin, hs⟩
    exact ⟨d, hp.reaches_of_mem (hon path hp), hd⟩
  · exact ⟨_, ((Expr.refsIn_iff.mp (hrefs e hin)).2 j hj).2⟩

theorem groupSource?_declared (hg : m.groupSource? = some s) : s ∈ m.declaredSources := by
  obtain ⟨op, hop, hs⟩ := Option.bind_eq_some_iff.mp hg
  have hin : op ∈ m.operators := List.mem_reverse.mp (List.mem_of_find?_eq_some hop)
  exact List.mem_cons_of_mem _
    (List.mem_append_right _ (List.mem_filterMap.mpr ⟨op, hin, hs⟩))

theorem holds_select (a : Arena) (m : QueryModel) : a.Holds m m.select :=
  .inl (by simp [QueryModel.expressions])

theorem WellFormed.met_exposedBy (h : a.WellFormed root)
    (he : e.RefsIn (a.Met root) (a.Reaches root)) (hx : a.exposedBy? e = some s) :
    a.Met root s := by
  have hstrip := he.strip
  unfold exposedBy? at hx
  split at hx
  next id heq =>
    obtain rfl := Option.some.inj hx
    rw [heq] at hstrip
    exact Expr.refsIn_sourceRef.mp hstrip
  next j heq =>
    rw [heq] at hstrip
    have hj : a.Reaches root j := Expr.refsIn_subQuery.mp hstrip
    split at hx
    · cases hx
    next m hm =>
      split at hx
      next group hgroup =>
        obtain rfl := Option.some.inj hx
        exact ⟨j, hj, m, hm, groupSource?_declared hgroup⟩
      · split at hx
        next id heq' =>
          obtain rfl := Option.some.inj hx
          have hselect := (h.met hj hm (holds_select a m)).strip
          rw [heq'] at hselect
          exact Expr.refsIn_sourceRef.mp hselect
        · cases hx
  · cases hx

theorem WellFormed.met_underlying (h : a.WellFormed root) (hs : a.Met root s)
    (hu : a.underlying? s = some r) : a.Met root r := by
  obtain ⟨k, hk, m, hm, hd⟩ := hs
  obtain ⟨src, hsrc, hx⟩ := Option.bind_eq_some_iff.mp hu
  exact h.met_exposedBy (h.met hk hm (.inr ⟨s, hd, src, hsrc, rfl⟩)) hx

theorem WellFormed.sourcesFrom (h : a.WellFormed root) (seen : List SourceId)
    (start : Option SourceId) (hstart : ∀ s ∈ start, a.Met root s) :
    ∃ ids, a.sourcesFrom seen start = .ok ids := by
  fun_induction Arena.sourcesFrom a seen start with
  | case1 => exact ⟨[], rfl⟩
  | case2 seen s hmissing =>
    obtain ⟨k, -, hd⟩ := hstart s rfl
    obtain ⟨src, hsrc⟩ := source?_of_lt (h.declared k s hd)
    cases hmissing.symm.trans hsrc
  | case3 => exact ⟨[], rfl⟩
  | case4 seen s src hsrc hgo ih =>
    obtain ⟨rest, hrest⟩ := ih fun r hr => h.met_underlying (hstart s rfl) hr
    exact ⟨s :: rest, by rw [hrest]; rfl⟩

theorem WellFormed.root_model (h : a.WellFormed root) : ∃ m, a.model? root = some m :=
  model?_of_lt (Nat.lt_of_succ_le (Nat.le_of_eq h.last))

theorem WellFormed.resultSources (h : a.WellFormed root) :
    ∃ ids, a.resultSources root = .ok ids := by
  obtain ⟨m, hm⟩ := h.root_model
  have hreach : a.Reaches root root := ⟨_, .start⟩
  simp only [Arena.resultSources, model, hm, bind, Except.bind]
  split
  · exact ⟨[], rfl⟩
  · apply h.sourcesFrom
    intro s hs
    unfold resultSource? at hs
    split at hs
    next group hgroup =>
      obtain rfl := Option.some.inj hs
      exact ⟨root, hreach, m, hm, groupSource?_declared hgroup⟩
    next => exact h.met_exposedBy (h.met hreach hm (holds_select a m)) hs

end Arena

open Construction (Refusal)

/-! ### Steps of a compilation -/

/-- A call returns what its cell holds, or else the result of its compilation. -/
theorem Cache.getOrAdd_result {K D E : Type} [DecidableEq K] (c : Cache K D) (space : Keyspace)
    (key : K) (compile : Cache K D → Except E D × Cache K D) :
    (c.getOrAdd space key compile).1.1 =
      ((c.reserve space key).get? space key).elim (compile (c.reserve space key)).1 .ok := by
  simp only [Cache.getOrAdd]
  cases (c.reserve space key).get? space key with
  | some d => rfl
  | none => rcases compile (c.reserve space key) with ⟨error | d, c'⟩ <;> rfl

namespace Include

theorem bindAll_refuses (a : Arena) (find : EntityLookup) (results : List SourceId)
    (includes : List (AppliedDirective × List String)) :
    Yields Refusal (fun _ => True) (bindAll a find results includes).1 := by
  induction includes with
  | nil => trivial
  | cons applied rest ih =>
    obtain ⟨applied, path⟩ := applied
    simp only [bindAll]
    split
    · split
      · exact .inl rfl
      · exact ih.map _
    · exact ih

/-- In a well-formed arena only an include that does not bind is refused. -/
theorem compile_refuses {a : Arena} {root : ModelId} (h : a.WellFormed root)
    (context : CompilationContext) (find : EntityLookup) :
    Yields Refusal (fun _ => True) (compile a root context find).1 := by
  obtain ⟨m, hm⟩ := h.root_model
  obtain ⟨results, hresults⟩ := h.resultSources
  simp only [compile, Arena.model, hm, hresults]
  split
  · trivial
  · split
    · trivial
    · exact (bindAll_refuses a find results context.includes).map _

end Include

theorem Builder.ofSettings_keepsRefs (registry : Registry) (s : Settings) (limit : Nat)
    (ambient : Ambient) :
    ∀ p ∈ (Builder.ofSettings registry s limit ambient).passes, p.KeepsRefs := by
  intro p hp
  apply Builder.standard_keepsRefs registry limit ambient
  simp only [Builder.ofSettings] at hp
  split at hp
  · exact hp
  · exact List.mem_cons_of_mem _ hp

theorem Builder.ofSettings_deepens (registry : Registry) (s : Settings) (ambient : Ambient)
    {limit larger : Nat} (hle : limit ≤ larger) (e : Expr) :
    Deepens (Pass.runAll (Builder.ofSettings registry s limit ambient).passes e)
      (Pass.runAll (Builder.ofSettings registry s larger ambient).passes e) := by
  simp only [Builder.ofSettings]
  by_cases hnormal : s.normalizeInBuilder = true
  · rw [if_pos hnormal, if_pos hnormal]
    exact (Pass.normalize_deepens hle e).bind fun _ => .refl _
  · rw [if_neg hnormal, if_neg hnormal]
    exact .refl _

namespace Compiler

variable (c : Compiler) (registry : Registry) {e shape : Expr}

theorem prepare_refuses {P : SourceId → Prop} {Q : ModelId → Prop} (he : e.RefsIn P Q)
    (store : ParameterStore) : Yields Refusal (Expr.RefsIn P Q) (c.prepare e store).1 := by
  have hnormal := Pass.normalize_keepsRefs c.limit P Q e he
  unfold prepare
  cases hrun : (Pass.normalize c.limit).run e with
  | error error =>
    rw [hrun] at hnormal
    exact .inr hnormal
  | ok normal =>
    rw [hrun] at hnormal
    have hkeeps := c.extractor.extractRoot_keeps (I := fun _ => True) (fun _ _ _ _ _ => trivial)
      hnormal (s := ⟨store, []⟩) trivial
    change Yields Refusal _ (c.extractor.extractRoot normal ⟨store, []⟩).1
    unfold ExtractM.Leads at hkeeps
    split at hkeeps
    next e' s' heq =>
      rw [heq]
      exact hkeeps.1
    next error s' heq =>
      rw [heq]
      obtain ⟨⟨fault, rfl⟩, _⟩ := hkeeps
      exact .inl rfl

theorem translate_refuses (hs : shape.sourceRefs = []) (hq : shape.subqueries = []) :
    Yields Refusal (fun _ => True) (c.translate registry shape).1 := by
  have hbuilt := Builder.build_sound
    (Builder.ofSettings_keepsRefs registry c.settings c.limit c.ambient) c.limit hs hq
  unfold translate
  cases hb : (c.builder registry).build c.limit shape with
  | error error =>
    rw [builder] at hb
    rw [hb] at hbuilt
    exact hbuilt
  | ok built =>
    rw [builder] at hb
    rw [hb] at hbuilt
    obtain ⟨hsound, hlast, hclosed⟩ := hbuilt
    have hwell := hsound.wellFormed hlast hclosed
    simp only [AppliedDirective.extract_eq, hwell.postorder, Option.elim_none]
    exact (Include.compile_refuses ((Arena.alike_foldl_takeFrom _ _).wellFormed hwell) _ _).map _

/-- The key that a shape is cached under. -/
def keyOf (keyspace : Keyspace) (shape : Expr) : QueryKey :=
  ⟨shape, c.settings.defaultTracking, keyspace == .async⟩

/-- The cached query of a shape, or else its translation. -/
def answer (keyspace : Keyspace) (cache : QueryCache) (shape : Expr) :
    Except Error CompiledQuery :=
  let key := c.keyOf keyspace shape
  ((cache.reserve keyspace key).get? keyspace key).elim
    ((c.translate registry shape).1.map fun query => ⟨query, keyspace, key⟩) .ok

theorem compile_result (keyspace : Keyspace) (e : Expr) (store : ParameterStore)
    (cache : QueryCache) :
    (c.compile registry keyspace e store cache).result =
      (c.prepare e store).1 >>= c.answer registry keyspace cache := by
  unfold compile
  rcases c.prepare e store with ⟨error | shape, store'⟩
  · rfl
  · let key := c.keyOf keyspace shape
    exact Cache.getOrAdd_result cache keyspace key fun cache =>
      ((c.translate registry shape).1.map fun query => ⟨query, keyspace, key⟩, cache)

theorem compile_refuses (keyspace : Keyspace) (hs : e.sourceRefs = []) (hq : e.subqueries = [])
    (store : ParameterStore) (cache : QueryCache) :
    Yields Refusal (fun _ => True) (c.compile registry keyspace e store cache).result := by
  have he : e.RefsIn (fun _ => False) fun _ => False := Expr.refsIn_iff.mpr (by simp [hs, hq])
  rw [compile_result]
  refine (c.prepare_refuses he store).bind fun shape hshape => ?_
  obtain ⟨hsources, hmodels⟩ := Expr.refsIn_iff.mp hshape
  simp only [answer]
  cases Cache.get? _ keyspace (c.keyOf keyspace shape) with
  | some query => trivial
  | none =>
    exact (c.translate_refuses registry (List.eq_nil_iff_forall_not_mem.mpr hsources)
      (List.eq_nil_iff_forall_not_mem.mpr hmodels)).map _

/-! ### Limits of a compilation -/

def withLimit (limit : Nat) : Compiler := { c with limit := limit }

variable {larger : Nat} (hle : c.limit ≤ larger)

include hle

theorem prepare_deepens (e : Expr) (store : ParameterStore) :
    Deepens (c.prepare e store).1 ((c.withLimit larger).prepare e store).1 := by
  unfold prepare
  rcases Pass.normalize_deepens hle e with hrun | hrun
  · simp only [hrun]
    exact .inl rfl
  · simp only [withLimit, ← hrun]
    exact .refl _

theorem translate_deepens (shape : Expr) :
    Deepens (c.translate registry shape).1 ((c.withLimit larger).translate registry shape).1 := by
  have hbuild : Deepens ((c.builder registry).build c.limit shape)
      (((c.withLimit larger).builder registry).build larger shape) :=
    Builder.build_deepens (Builder.ofSettings_deepens registry c.settings c.ambient hle) hle shape
  unfold translate
  rcases hbuild with hrun | hrun
  · simp only [hrun]
    exact .inl rfl
  · rw [hrun]
    exact .refl _

theorem answer_deepens (keyspace : Keyspace) (cache : QueryCache) (shape : Expr) :
    Deepens (c.answer registry keyspace cache shape)
      ((c.withLimit larger).answer registry keyspace cache shape) := by
  have htranslate := c.translate_deepens registry hle shape
  have hkey : (c.withLimit larger).keyOf keyspace shape = c.keyOf keyspace shape := rfl
  simp only [answer, hkey]
  generalize c.keyOf keyspace shape = key
  cases (cache.reserve keyspace key).get? keyspace key with
  | some query =>
    simp only [Option.elim_some]
    exact .refl _
  | none =>
    simp only [Option.elim_none]
    exact htranslate.map _

theorem compile_deepens (keyspace : Keyspace) (e : Expr) (store : ParameterStore)
    (cache : QueryCache) :
    Deepens (c.compile registry keyspace e store cache).result
      ((c.withLimit larger).compile registry keyspace e store cache).result := by
  rw [c.compile_result, (c.withLimit larger).compile_result]
  exact (c.prepare_deepens hle e store).bind (c.answer_deepens registry hle keyspace cache)

omit hle

/-- If the compilation of an expression without references ends within some limit, then within this
and every larger limit its only errors are those of a faulty query: operators that are not known or
have wrong arguments, includes that do not bind, parameters without a value. -/
theorem compile_error_isQueryError (keyspace : Keyspace) (e : Expr) (hs : e.sourceRefs = [])
    (hq : e.subqueries = []) (store : ParameterStore) (cache : QueryCache)
    (hlimit : (c.compile registry keyspace e store cache).result ≠ .error .limitExceeded)
    (larger : Nat) (hle : c.limit ≤ larger) (error : Error)
    (herror : ((c.withLimit larger).compile registry keyspace e store cache).result =
      .error error) :
    error.isQueryError = true ∧ error.isFatal = false := by
  have hsame := (c.compile_deepens registry hle keyspace e store cache).resolve_left hlimit
  have hrefusal := c.compile_refuses registry keyspace hs hq store cache
  rw [hsame, herror] at hrefusal hlimit
  have hquery : error.isQueryError = true :=
    hrefusal.resolve_right fun h => hlimit (congrArg _ h)
  refine ⟨hquery, ?_⟩
  cases error with
  | internal fault => cases hquery
  | _ => rfl

/-- A filter whose predicate looks into a chain with an operator that is not known. -/
def ordersOfShuffled : Expr :=
  .staticCall (.queryable "Where" 2) [.entityQuery "Order", .lambda ["o"]
    (.staticCall (.queryable "Any" 1)
      [.staticCall (.queryable "Shuffle" 1) [.entityQuery "Customer"]])]

/-- A compiler that knows all entity types, none of which has navigations. -/
def unrelated : Compiler :=
  .ofSettings (fun name => some ⟨name, []⟩) .standard 1 ⟨⟨0, 0⟩, fun _ => .empty⟩

theorem compile_error_isQueryError_shuffled :
    ∃ error, ((unrelated.withLimit 5).compile .standard .async ordersOfShuffled [] .empty).result =
        .error error ∧ error.isQueryError = true ∧ error.isFatal = false := by
  have hends : (match (unrelated.compile .standard .async ordersOfShuffled [] .empty).result with
      | .ok _ => none
      | .error error => some error.label) = some "UnrecognizedOperator" := by decide +kernel
  have hlimit : (unrelated.compile .standard .async ordersOfShuffled [] .empty).result ≠
      .error .limitExceeded := by
    intro heq
    rw [heq] at hends
    exact absurd hends (by decide)
  have hfails : ((unrelated.withLimit 5).compile .standard .async ordersOfShuffled []
      .empty).result.isOk = false := by decide +kernel
  cases hresult : ((unrelated.withLimit 5).compile .standard .async ordersOfShuffled []
      .empty).result with
  | ok query =>
    rw [hresult] at hfails
    contradiction
  | error error =>
    exact ⟨error, rfl,
      compile_error_isQueryError unrelated .standard .async ordersOfShuffled rfl rfl
      [] .empty hlimit 5 (by decide) error hresult⟩

end Compiler

end QueryTree
