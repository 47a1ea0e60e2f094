import QueryTree.Proofs.Compilation
import QueryTree.Proofs.GroupingOrder
import QueryTree.Proofs.IncludeCoverage
import QueryTree.Proofs.SourceWalks

/-! Results and groups. The walk over the sources that a query returns starts at the root and ends
where it comes to groups. So it does not enter a model whose items are groups: the sources of such a
model are no results, and nothing is loaded with their entities. -/

namespace QueryTree

namespace Arena

variable {a : Arena} {root j k : ModelId} {s r : SourceId} {m n : QueryModel} {e : Expr}
  {path : List ModelId}

/-! ### Ways around a model -/

/-- The root leads to model `j` on a way around model `k`. -/
def Bypasses (a : Arena) (root k j : ModelId) : Prop := ∃ path, a.Path root path j ∧ k ∉ path

/-- A source of a model that the root leads to around model `k`. -/
def Outside (a : Arena) (root k : ModelId) (s : SourceId) : Prop :=
  ∃ j, a.Bypasses root k j ∧ a.Declares j s

theorem Path.bypasses_of_mem (hp : a.Path root path j) (hk : k ∉ path) (hd : r ∈ path) :
    a.Bypasses root k r := by
  induction hp with
  | start =>
    obtain rfl := List.mem_singleton.mp hd
    exact ⟨_, .start, hk⟩
  | step hp hr ih =>
    rcases List.mem_cons.mp hd with rfl | hd
    · exact ⟨_, hp.step hr, hk⟩
    · exact ih (fun h => hk (List.mem_cons_of_mem _ h)) hd

/-- What a model outside holds refers to sources outside, and to models outside or to `k` itself. -/
theorem WellFormed.outside (h : a.WellFormed root) (hj : a.Bypasses root k j)
    (hm : a.model? j = some m)
    (he : a.Holds m e) : e.RefsIn (a.Outside root k) fun i => i = k ∨ a.Bypasses root k i := by
  obtain ⟨path, hp, hk⟩ := hj
  obtain ⟨es, hes, hrefs⟩ := h.expressions hp
  have hin : e ∈ es := (mem_modelExpressions hm hes).mpr he
  refine Expr.refsIn_iff.mpr ⟨fun s hs => ?_, fun i hi => ?_⟩
  · -- The model that declares the source lies on all ways to `j`, so also on the way around `k`.
    obtain ⟨d, hd, hon⟩ := h.enclosed j s ⟨path, hp⟩ ⟨es, hes, e, hin, hs⟩
    exact ⟨d, hp.bypasses_of_mem hk (hon path hp), hd⟩
  · have hpath := ((Expr.refsIn_iff.mp (hrefs e hin)).2 i hi).2
    by_cases hik : i = k
    · exact .inl hik
    · exact .inr ⟨_, hpath, List.not_mem_cons_of_ne_of_not_mem (Ne.symm hik) hk⟩

theorem WellFormed.not_declares_of_outside (h : a.WellFormed root) (hs : a.Outside root k s) :
    ¬ a.Declares k s := by
  intro hdeclares
  obtain ⟨j, ⟨path, hp, hk⟩, hj⟩ := hs
  obtain ⟨owner, -, hunique⟩ := h.owned s (h.declared j s hj)
  exact hk ((hunique k hdeclares).trans (hunique j hj).symm ▸ hp.mem)

/-! ### The walk -/

/-- All sources that groupings declare stand for groups. -/
def GroupsMarked (a : Arena) : Prop :=
  ∀ m ∈ a.models, ∀ op ∈ m.operators, ∀ s ∈ op.source?, a.IsGroups s

theorem GroupsMarked.groupSource? (h : a.GroupsMarked) (hm : a.model? k = some m)
    (hs : m.groupSource? = some s) : a.IsGroups s := by
  obtain ⟨op, hop, hs⟩ := Option.bind_eq_some_iff.mp hs
  have hin : op ∈ m.operators := List.mem_reverse.mp (List.mem_of_find?_eq_some hop)
  exact h m (List.mem_of_getElem? hm) op hin s hs

/-- What an expression outside stands for is outside, or consists of the groups of model `k`. -/
theorem WellFormed.outside_exposedBy (h : a.WellFormed root) (hmarked : a.GroupsMarked)
    (hk : a.model? k = some n) (hgroups : n.groupSource?.isSome = true)
    (he : e.RefsIn (a.Outside root k) fun i => i = k ∨ a.Bypasses root k i)
    (hx : a.exposedBy? e = some s) : a.Outside root k s ∨ a.IsGroups s := by
  have hstrip := he.strip
  unfold exposedBy? at hx
  split at hx
  next id heq =>
    obtain rfl := Option.some.inj hx
    rw [heq] at hstrip
    exact .inl (Expr.refsIn_sourceRef.mp hstrip)
  next j heq =>
    rw [heq] at hstrip
    have hj : j = k ∨ a.Bypasses root k j := Expr.refsIn_subQuery.mp hstrip
    split at hx
    · cases hx
    next m hm =>
      split at hx
      next group hgroup =>
        obtain rfl := Option.some.inj hx
        exact .inr (hmarked.groupSource? hm hgroup)
      next hnone =>
        -- The subquery is not `k`: the items of `k` are groups, those of the subquery are not.
        rcases hj with rfl | hj
        · obtain rfl := Option.some.inj (hk.symm.trans hm)
          simp [hnone] at hgroups
        · split at hx
          next id heq' =>
            obtain rfl := Option.some.inj hx
            have hselect := (h.outside hj hm (holds_select a m)).strip
            rw [heq'] at hselect
            exact .inl (Expr.refsIn_sourceRef.mp hselect)
          · cases hx
  · cases hx

theorem WellFormed.outside_underlying (h : a.WellFormed root) (hmarked : a.GroupsMarked)
    (hk : a.model? k = some n) (hgroups : n.groupSource?.isSome = true) (hs : a.Outside root k s)
    (hu : a.underlying? s = some r) : a.Outside root k r ∨ a.IsGroups r := by
  obtain ⟨j, hj, m, hm, hd⟩ := hs
  obtain ⟨src, hsrc, hx⟩ := Option.bind_eq_some_iff.mp hu
  exact h.outside_exposedBy hmarked hk hgroups (h.outside hj hm (.inr ⟨s, hd, src, hsrc, rfl⟩)) hx

theorem source_ok {src : QuerySource} (h : a.source s = .ok src) : a.source? s = some src := by
  unfold source at h
  split at h
  next heq => rw [heq, Except.ok.inj h]
  next => cases h

theorem sourcesFrom_eq_nil_of_isGroups (hs : a.IsGroups s) (seen : List SourceId) :
    a.sourcesFrom seen (some s) = .ok [] := by
  obtain ⟨src, hsrc, hkind⟩ := hs
  simp [sourcesFrom_some, source, hsrc, hkind, Except.bind]

theorem WellFormed.sourcesFrom_outside (h : a.WellFormed root) (hmarked : a.GroupsMarked)
    (hk : a.model? k = some n) (hgroups : n.groupSource?.isSome = true)
    {seen results : List SourceId} {start : Option SourceId}
    (hstart : ∀ s ∈ start, a.Outside root k s ∨ a.IsGroups s)
    (hwalk : a.sourcesFrom seen start = .ok results) : ∀ s ∈ results, a.Outside root k s := by
  fun_induction Arena.sourcesFrom a seen start generalizing results with
  | case1 | case3 =>
    obtain rfl := Except.ok.inj hwalk
    simp
  | case2 => cases hwalk
  | case4 seen s src hsrc hgo ih =>
    obtain ⟨rest, hrest, rfl⟩ := map_eq_ok.mp hwalk
    have hs : a.Outside root k s := by
      refine (hstart s rfl).resolve_right ?_
      rintro ⟨src', hsrc', hkind⟩
      obtain rfl := Option.some.inj (hsrc.symm.trans hsrc')
      exact hgo (.inl hkind)
    have hnext : ∀ r ∈ a.underlying? s, a.Outside root k r ∨ a.IsGroups r :=
      fun r hr => h.outside_underlying hmarked hk hgroups hs hr
    exact List.forall_mem_cons.mpr ⟨hs, ih hnext hrest⟩

/-- A query returns no sources if its result is a scalar, consists of groups or of what is no
source. -/
theorem resultSources_eq_nil_iff {results : List SourceId} (hm : a.model? root = some m)
    (hresults : a.resultSources root = .ok results) :
    results = [] ↔ m.isScalar = true ∨ ∀ s ∈ a.resultSource? m, a.IsGroups s := by
  rw [resultSources_of_model? hm] at hresults
  split at hresults
  next hscalar =>
    obtain rfl := Except.ok.inj hresults
    simp [hscalar]
  next hscalar =>
    cases hstart : a.resultSource? m with
    | none =>
      rw [hstart, sourcesFrom_none] at hresults
      obtain rfl := Except.ok.inj hresults
      simp
    | some s =>
      rw [hstart] at hresults
      by_cases hgroups : a.IsGroups s
      · rw [sourcesFrom_eq_nil_of_isGroups hgroups] at hresults
        obtain rfl := Except.ok.inj hresults
        simpa using .inr hgroups
      · rw [sourcesFrom_some] at hresults
        obtain ⟨src, hsrc, hresults⟩ := bind_eq_ok.mp hresults
        have hkind : src.kind ≠ .groupResult := fun hkind => hgroups ⟨src, source_ok hsrc, hkind⟩
        rw [if_neg (by simp [hkind])] at hresults
        obtain ⟨rest, -, rfl⟩ := map_eq_ok.mp hresults
        simpa [hscalar] using hgroups

/-- The sources of a model whose items are groups are no results. -/
theorem WellFormed.resultSources_outside (h : a.WellFormed root) (hmarked : a.GroupsMarked)
    (hk : a.model? k = some n) (hgroups : n.groupSource?.isSome = true) {results : List SourceId}
    (hresults : a.resultSources root = .ok results) (hs : s ∈ results) : ¬ a.Declares k s := by
  obtain ⟨m, hm⟩ := h.root_model
  rw [resultSources_of_model? hm] at hresults
  split at hresults
  · obtain rfl := Except.ok.inj hresults
    cases hs
  · have hstart : ∀ s ∈ a.resultSource? m, a.Outside root k s ∨ a.IsGroups s := by
      intro s hs
      unfold resultSource? at hs
      split at hs
      next group hgroup =>
        obtain rfl := Option.some.inj hs
        exact .inr (hmarked.groupSource? hm hgroup)
      next hnone =>
        have hroot : k ≠ root := by
          rintro rfl
          obtain rfl := Option.some.inj (hk.symm.trans hm)
          simp [hnone] at hgroups
        have hbypass : a.Bypasses root k root := ⟨_, .start, by simpa using hroot⟩
        exact h.outside_exposedBy hmarked hk hgroups (h.outside hbypass hm (holds_select a m)) hs
    exact h.not_declares_of_outside (h.sourcesFrom_outside hmarked hk hgroups hstart hresults s hs)

end Arena

theorem isGroups_invariant :
    OperatorInvariant fun a ops => ∀ op ∈ ops, ∀ s ∈ op.source?, a.IsGroups s where
  later hcont h op hop s hs := hcont.isGroups (h op hop s hs)
  nil _ := by simp
  add _ hgroups h := List.forall_mem_append.mpr ⟨h, by simpa using hgroups⟩
  extendInclude {a names ops ops'} hops h := by
    intro op hop s hs
    have hgrouping : op.isGrouping = true := by rw [← op.isSome_source?, hs, Option.isSome_some]
    have hfilter : op ∈ ops'.reverse.filter (!·.isDirective) :=
      List.mem_filter.mpr ⟨hop, by simp [ResultOperator.isDirective_of_isGrouping hgrouping]⟩
    rw [Construction.filter_reverse_extendInclude? hops] at hfilter
    exact h op (List.mem_of_mem_filter hfilter) s hs

theorem Include.mem_results_of_plan {a : Arena} {root : ModelId} {m : QueryModel}
    {results : List SourceId} {context : CompilationContext} {find : EntityLookup}
    {compiled : CompiledIncludes} {p : IncludePlan} (hm : a.model root = .ok m)
    (hresults : a.resultSources root = .ok results)
    (h : (compile a root context find).1 = .ok compiled) (hp : p ∈ compiled.plans) :
    p.source ∈ results := by
  cases hscalar : m.isScalar with
  | true =>
    rw [compile_of_scalar hm hscalar] at h
    obtain rfl := Except.ok.inj h
    cases hp
  | false =>
    obtain ⟨i, -, hsource, ⟨ns, hplanned⟩, -⟩ :=
      (compile_sources hm hscalar hresults h).mp ⟨p, hp, rfl⟩
    exact hsource ▸ hplanned.1

namespace Builder

/-- Groups end the walk over results. If an expression without references is built, the sources that
the query returns can be listed. There are none if and only if the result is a scalar, consists of
groups or of what is no source. A model whose items are groups, at whatever depth, has none of them,
so no include is planned for the entities of its sources. -/
theorem build_results_end_at_groups (registry : Registry) (ambient : Ambient) (limit depth : Nat)
    {e : Expr} {built : BuiltQuery} (hs : e.sourceRefs = []) (hq : e.subqueries = [])
    (hbuilt : (Builder.standard registry limit ambient).build depth e = .ok built) :
    ∃ m results, built.arena.model? built.root = some m ∧
      built.arena.resultSources built.root = .ok results ∧
      (results = [] ↔
        m.isScalar = true ∨ ∀ s ∈ built.arena.resultSource? m, built.arena.IsGroups s) ∧
      (m.grouping = .outermost → results = []) ∧
      ∀ k n, built.arena.model? k = some n → n.grouping = .outermost →
        (∀ s ∈ results, ¬ built.arena.Declares k s) ∧
        ∀ context find compiled,
          (Include.compile built.arena built.root context find).1 = .ok compiled →
          ∀ p ∈ compiled.plans, ¬ built.arena.Declares k p.source := by
  have hsound := build_sound (standard_keepsRefs registry limit ambient) depth hs hq
  rw [hbuilt] at hsound
  obtain ⟨hsound, hlast, hclosed⟩ := hsound
  have hwell := hsound.wellFormed hlast hclosed
  have hmarked : built.arena.GroupsMarked := build_obeys isGroups_invariant hbuilt
  obtain ⟨m, hm⟩ := hwell.root_model
  obtain ⟨results, hresults⟩ := hwell.resultSources
  have hnil := Arena.resultSources_eq_nil_iff hm hresults
  refine ⟨m, results, hm, hresults, hnil, fun hgrouping => hnil.mpr (.inr ?_),
    fun k n hk hgrouping => ?_⟩
  · intro s hs
    obtain ⟨group, hgroup⟩ :=
      Option.isSome_iff_exists.mp (QueryModel.grouping_eq_outermost_iff.mp hgrouping)
    rw [Arena.resultSource?, hgroup] at hs
    exact hmarked.groupSource? hm (hgroup.trans hs)
  · have hgroups : n.groupSource?.isSome = true := QueryModel.grouping_eq_outermost_iff.mp hgrouping
    have houtside : ∀ s ∈ results, ¬ built.arena.Declares k s :=
      fun s hs => hwell.resultSources_outside hmarked hk hgroups hresults hs
    have hmodel : built.arena.model built.root = .ok m := by simp [Arena.model, hm]
    refine ⟨houtside, fun context find compiled hcompile p hp => houtside _ ?_⟩
    exact Include.mem_results_of_plan hmodel hresults hcompile hp

/-- The groups with more than one customer: no customer of the inner model is a result. -/
theorem build_results_end_at_groups_byCity :
    let b : Builder := .standard .standard 8 ⟨⟨0, 0⟩, fun _ => .empty⟩
    let large : Expr := .filtered byCity (.lambda ["g"]
      (.binary .gt (.member (.var "g") ⟨"Grouping", "Size"⟩) (.constant (.int 1))))
    ∃ built n results, b.build 8 large = .ok built ∧ built.arena.model? 0 = some n ∧
      n.grouping = .outermost ∧ built.arena.resultSources built.root = .ok results ∧
      ∀ s ∈ results, ¬ built.arena.Declares 0 s := by
  intro b large
  have hinner : ((b.build 8 large).toOption.map fun built =>
      (built.arena.model? 0).map (·.grouping)) = some (some .outermost) := by decide +kernel
  obtain ⟨built, hbuilt, hn⟩ := exists_of_toOption_map hinner
  obtain ⟨n, hn, hgrouping⟩ := Option.map_eq_some_iff.mp hn
  obtain ⟨m, results, -, hresults, -, -, houtside⟩ :=
    build_results_end_at_groups .standard _ 8 8 (by decide +kernel) (by decide +kernel) hbuilt
  exact ⟨built, n, results, hbuilt, hn, hgrouping, hresults, (houtside 0 n hn hgrouping).1⟩

/-- The customers of the first five cities are returned in groups, but they are results, and their
addresses are loaded. -/
theorem build_results_pass_covered_groups :
    let b : Builder := .standard .standard 8 ⟨⟨0, 0⟩, fun _ => .empty⟩
    let context : CompilationContext :=
      { CompilationContext.ofDefault .trackAll with directives := [⟨.includes ["Address"], 0, 0⟩] }
    ∃ built m compiled, b.build 8 (.take byCity (.constant (.int 5))) = .ok built ∧
      built.arena.model? built.root = some m ∧ (∃ op ∈ m.operators, op.isGrouping = true) ∧
      built.arena.resultSources built.root = .ok [0] ∧
      (Include.compile built.arena built.root context Include.shop.find?).1 = .ok compiled ∧
      compiled.plans.map (·.source) = [0] := by
  intro b context
  have hparts : ((b.build 8 (.take byCity (.constant (.int 5)))).toOption.map fun built =>
      (built.arena, built.root)) = some (⟨[⟨0, [], .sourceRef 0,
        [.groupBy (.member (.sourceRef 0) ⟨"Customer", "City"⟩) (.sourceRef 0) 1,
          .take (.constant (.int 5))]⟩],
        [⟨"c", .mainFrom, .entityQuery "Customer", some "Customer"⟩,
          ⟨"<generated>_1", .groupResult, .sourceRef 0, none⟩]⟩, 0) := by
    decide +kernel
  obtain ⟨⟨a, root⟩, hbuilt, hparts⟩ := exists_of_toOption_map hparts
  obtain ⟨rfl, rfl⟩ := Prod.mk.inj hparts
  exact ⟨_, _, _, hbuilt, rfl, by decide, rfl, rfl, rfl⟩

end Builder

end QueryTree
