import QueryTree.Proofs.IncludePlans

/-! Include plans are complete. Along its path an include adds a step for every part of the path
that has none, so a plan has the parts of all paths on its source, whatever their order. What is
attached is hence a matter of which includes there are. -/

namespace QueryTree

/-- What a step attaches: a path, and the navigation at its end. -/
def IncludeStep.attached? : IncludeStep → Option (List String × Navigation)
  | startTracking => none
  | reference path n _ => some (path, n)
  | collection path n _ => some (path, n)

/-- The paths of a plan, with their navigations. -/
def IncludePlan.attached (p : IncludePlan) : List (List String × Navigation) :=
  p.steps.filterMap (·.attached?)

/-- A path, with the navigation at its end, is attached to the entities of a source. -/
def CompiledIncludes.Attaches (c : CompiledIncludes) (s : SourceId) (path : List String)
    (n : Navigation) : Prop :=
  ∃ p ∈ c.plans, p.source = s ∧ (path, n) ∈ p.attached

namespace Include

variable {a : Arena} {find : EntityLookup} {tracking : Bool} {p : IncludePlan} {b : BoundInclude}
  {q : List String} {n : Navigation}

/-! ### Paths of a plan -/

theorem mem_addSteps_paths {front : List String} {rest : List Navigation} {draft : Draft} :
    q ∈ (addSteps tracking b front rest draft).1.steps.map (·.path) ↔
      q ∈ draft.1.steps.map (·.path) ∨
        ∃ tail, tail ≠ [] ∧ tail <+: rest.map (·.name) ∧ q = front ++ tail := by
  induction rest generalizing front draft with
  | nil =>
    constructor
    · exact .inl
    · intro h
      obtain h | ⟨tail, hne, hpart, -⟩ := h
      · exact h
      · exact absurd (List.prefix_nil.mp hpart) hne
  | cons n rest ih =>
    rw [addSteps, ih, mem_addStep_paths, or_assoc, List.map_cons]
    apply or_congr_right
    constructor
    · intro h
      obtain rfl | ⟨tail, hne, hpart, rfl⟩ := h
      · exact ⟨[n.name], by simp, by simp, rfl⟩
      · exact ⟨n.name :: tail, by simp, by simpa using hpart, by simp⟩
    · rintro ⟨tail, hne, hpart, hq⟩
      cases tail with
      | nil => exact absurd rfl hne
      | cons name tail =>
        obtain ⟨rfl, htail⟩ := List.cons_prefix_cons.mp hpart
        cases tail with
        | nil => exact .inl hq
        | cons name tail => exact .inr ⟨name :: tail, by simp, htail, by simpa using hq⟩

theorem mem_extended_paths {c : CompiledIncludes} (hq : q ≠ []) :
    q ∈ (extended tracking c b).1.steps.map (·.path) ↔
      q ∈ ((c.planFor? b.source).getD (newPlan tracking b)).steps.map (·.path) ∨
        q <+: b.navigations.map (·.name) := by
  rw [extended, mem_addSteps_paths]
  apply or_congr_right
  simp [hq]

/-- In a well-formed plan, the steps with a path are those that attach something. -/
theorem exists_attached_iff (h : p.WellFormed a find tracking) :
    (∃ n, (q, n) ∈ p.attached) ↔ q ≠ [] ∧ q ∈ p.steps.map (·.path) := by
  simp only [IncludePlan.attached, List.mem_filterMap, List.mem_map]
  constructor
  · rintro ⟨n, step, hstep, hattached⟩
    have hfits := h.fits step hstep
    cases step with
    | startTracking => cases hattached
    | reference path m slot =>
      obtain ⟨rfl, rfl⟩ := Prod.mk.inj (Option.some.inj hattached)
      exact ⟨hfits.1.ne_nil, _, hstep, rfl⟩
    | collection path m id =>
      obtain ⟨rfl, rfl⟩ := Prod.mk.inj (Option.some.inj hattached)
      exact ⟨hfits.1.ne_nil, _, hstep, rfl⟩
  · rintro ⟨hq, step, hstep, hpath⟩
    cases step with
    | startTracking => exact absurd hpath.symm hq
    | reference path m slot => exact ⟨m, _, hstep, by rw [← hpath]; rfl⟩
    | collection path m id => exact ⟨m, _, hstep, by rw [← hpath]; rfl⟩

theorem endsIn_of_attached (h : p.WellFormed a find tracking) (hq : (q, n) ∈ p.attached) :
    EndsIn a find p.source q n := by
  obtain ⟨step, hstep, hattached⟩ := List.mem_filterMap.mp hq
  have hfits := h.fits step hstep
  cases step with
  | startTracking => cases hattached
  | reference path m slot =>
    obtain ⟨rfl, rfl⟩ := Prod.mk.inj (Option.some.inj hattached)
    exact hfits.1
  | collection path m id =>
    obtain ⟨rfl, rfl⟩ := Prod.mk.inj (Option.some.inj hattached)
    exact hfits.1

/-! ### All plans -/

/-- There are plans for the sources of includes, each with the parts of the paths on its source. -/
structure Covers (bs : List BoundInclude) (c : CompiledIncludes) : Prop where
  sources : ∀ s, (∃ p ∈ c.plans, p.source = s) ↔ ∃ b ∈ bs, b.source = s
  paths : ∀ p ∈ c.plans, ∀ q, q ≠ [] → (q ∈ p.steps.map (·.path) ↔
    ∃ b ∈ bs, b.source = p.source ∧ q <+: b.navigations.map (·.name))

theorem Covers.paths_planFor? {bs : List BoundInclude} {c : CompiledIncludes} (h : Covers bs c)
    (hq : q ≠ []) :
    q ∈ ((c.planFor? b.source).getD (newPlan tracking b)).steps.map (·.path) ↔
      ∃ b' ∈ bs, b'.source = b.source ∧ q <+: b'.navigations.map (·.name) := by
  cases hplan : c.planFor? b.source with
  | some p =>
    have hsource := List.find?_some hplan
    rw [Option.getD_some, h.paths p (List.mem_of_find?_eq_some hplan) q hq, eq_of_beq hsource]
  | none =>
    rw [Option.getD_none]
    constructor
    · intro hmem
      obtain ⟨step, hstep, rfl⟩ := List.mem_map.mp hmem
      rw [eq_of_mem_newPlan hstep] at hq
      exact absurd rfl hq
    · rintro ⟨b', hb', hsource, _⟩
      obtain ⟨p, hp, hpsource⟩ := (h.sources b.source).mpr ⟨b', hb', hsource⟩
      have hno := List.find?_eq_none.mp hplan p hp
      exact absurd (beq_iff_eq.mpr hpsource) hno

theorem Covers.addInclude {bs : List BoundInclude} {c : CompiledIncludes} (h : Covers bs c)
    (hsources : (c.plans.map (·.source)).Nodup) (tracking : Bool) (b : BoundInclude) :
    Covers (bs ++ [b]) (addInclude tracking c b) where
  sources s := by
    simp only [mem_addInclude_plans hsources, List.mem_append, List.mem_singleton]
    constructor
    · rintro ⟨p, hp, hs⟩
      obtain rfl | ⟨hp, -⟩ := hp
      · exact ⟨b, .inr rfl, (source_extended tracking c b).symm.trans hs⟩
      · obtain ⟨b', hb', hs⟩ := (h.sources s).mp ⟨p, hp, hs⟩
        exact ⟨b', .inl hb', hs⟩
    · rintro ⟨b', hb', hs⟩
      by_cases hb : s = b.source
      · exact ⟨_, .inl rfl, (source_extended tracking c b).trans hb.symm⟩
      · obtain hb' | rfl := hb'
        · obtain ⟨p, hp, hp'⟩ := (h.sources s).mpr ⟨b', hb', hs⟩
          exact ⟨p, .inr ⟨hp, hp' ▸ hb⟩, hp'⟩
        · exact absurd hs.symm hb
  paths p hp q hq := by
    simp only [List.mem_append, List.mem_singleton, or_and_right, exists_or, exists_eq_left]
    obtain rfl | ⟨hp, hne⟩ := (mem_addInclude_plans hsources).mp hp
    · rw [mem_extended_paths hq, h.paths_planFor? hq, source_extended]
      simp
    · rw [h.paths p hp q hq]
      constructor
      · exact .inl
      · intro hq
        obtain hq | ⟨hsource, -⟩ := hq
        · exact hq
        · exact absurd hsource.symm hne

theorem foldl_addInclude_covers {bs : List BoundInclude} (hbs : ∀ b ∈ bs, Plannable a find b) :
    Covers bs (bs.foldl (addInclude tracking) .empty) := by
  induction bs using List.reverseRecOn with
  | nil => exact ⟨by simp [CompiledIncludes.empty], by simp [CompiledIncludes.empty]⟩
  | append_singleton bs b ih =>
    have hbs : ∀ b ∈ bs, Plannable a find b := fun b' hb' => hbs b' (by simp [hb'])
    have hwell := foldl_addInclude_wellFormed hbs (empty_wellFormed a find tracking)
    rw [List.foldl_append]
    exact (ih hbs).addInclude hwell.sources tracking b

theorem assemble_covers {bs : List BoundInclude} (hbs : ∀ b ∈ bs, Plannable a find b) :
    Covers bs (assemble tracking bs) := by
  have hranked : ∀ b ∈ ranked bs, Plannable a find b := fun b hb => hbs b (mem_ranked.mp hb)
  have hcovers : Covers (ranked bs) (assemble tracking bs) := foldl_addInclude_covers hranked
  obtain ⟨hsources, hpaths⟩ := hcovers
  simp only [mem_ranked] at hsources hpaths
  exact ⟨hsources, hpaths⟩

/-! ### Compilation -/

variable {root : ModelId} {context context' : CompilationContext} {m : QueryModel}
  {results : List SourceId} {compiled compiled' : CompiledIncludes} {s : SourceId}

/-- An include on a source is planned for, and a path is part of its path. -/
def Wanted (a : Arena) (find : EntityLookup) (results : List SourceId) (includes : List Asked)
    (s : SourceId) (q : List String) : Prop :=
  ∃ i ∈ includes, i.1.source = s ∧ (∃ ns, Planned a find results i ns) ∧ q <+: i.2

theorem exists_bound_iff {includes : List Asked} {bs : List BoundInclude}
    (h : (bindAll a find results includes).1 = .ok bs) (s : SourceId) (q : List String) :
    (∃ b ∈ bs, b.source = s ∧ q <+: b.navigations.map (·.name)) ↔
      Wanted a find results includes s q := by
  obtain rfl := (bindAll_eq_ok_iff.mp h).2
  simp only [List.mem_filterMap]
  constructor
  · rintro ⟨b, ⟨i, hi, hb⟩, hs, hq⟩
    obtain ⟨hplanned, hsource, -⟩ := planned?_eq_some_iff.mp hb
    rw [hplanned.2.1.names] at hq
    exact ⟨i, hi, hsource.symm.trans hs, ⟨_, hplanned⟩, hq⟩
  · rintro ⟨i, hi, hs, ⟨ns, hplanned⟩, hq⟩
    obtain ⟨-, type, -, htype, -⟩ := hplanned.2.1
    refine ⟨⟨i.1.source, type, ns⟩, ⟨i, hi, ?_⟩, hs, ?_⟩
    · exact planned?_eq_some_iff.mpr ⟨hplanned, rfl, htype⟩
    · rw [hplanned.2.1.names]
      exact hq

theorem compile_error_iff (hm : a.model root = .ok m) (hscalar : m.isScalar = false)
    (hresults : a.resultSources root = .ok results) {error : Error} :
    (compile a root context find).1 = .error error ↔
      ∃ earlier i later, context.includes = earlier ++ i :: later ∧
        (∀ j ∈ earlier, ¬Unbound a find results j) ∧ Unbound a find results i ∧
        error = .includeNotBindable (".".intercalate i.2) := by
  rw [compile_of_results hm hscalar hresults, ← bindAll_eq_error_iff]
  cases (bindAll a find results context.includes).1 with
  | error e => simp [Except.map]
  | ok bs => simp [Except.map]

theorem compile_ok_iff (hm : a.model root = .ok m) (hscalar : m.isScalar = false)
    (hresults : a.resultSources root = .ok results) :
    (∃ compiled, (compile a root context find).1 = .ok compiled) ↔
      ∀ i ∈ context.includes, ¬Unbound a find results i := by
  rw [compile_of_results hm hscalar hresults]
  constructor
  · rintro ⟨compiled, h⟩
    cases hbs : (bindAll a find results context.includes).1 with
    | error e =>
      rw [hbs] at h
      cases h
    | ok bs => exact (bindAll_eq_ok_iff.mp hbs).1
  · intro h
    rw [bindAll_eq_ok_iff.mpr ⟨h, rfl⟩]
    exact ⟨_, rfl⟩

theorem exists_assembled (hm : a.model root = .ok m) (hscalar : m.isScalar = false)
    (hresults : a.resultSources root = .ok results)
    (h : (compile a root context find).1 = .ok compiled) :
    ∃ bs, (bindAll a find results context.includes).1 = .ok bs ∧
      compiled.WellFormed a find context.isTracking ∧ Covers bs compiled := by
  rw [compile_of_results hm hscalar hresults] at h
  cases hbs : (bindAll a find results context.includes).1 with
  | error e =>
    rw [hbs] at h
    cases h
  | ok bs =>
    rw [hbs] at h
    obtain rfl := Except.ok.inj h
    have hplannable := plannable_of_bindAll hbs
    exact ⟨bs, rfl, assemble_wellFormed hplannable, assemble_covers hplannable⟩

theorem compile_sources (hm : a.model root = .ok m) (hscalar : m.isScalar = false)
    (hresults : a.resultSources root = .ok results)
    (h : (compile a root context find).1 = .ok compiled) :
    (∃ p ∈ compiled.plans, p.source = s) ↔ Wanted a find results context.includes s [] := by
  obtain ⟨bs, hbs, -, hcovers⟩ := exists_assembled hm hscalar hresults h
  rw [hcovers.sources, ← exists_bound_iff hbs]
  simp

theorem compile_paths (hm : a.model root = .ok m) (hscalar : m.isScalar = false)
    (hresults : a.resultSources root = .ok results)
    (h : (compile a root context find).1 = .ok compiled) (hp : p ∈ compiled.plans) :
    (∃ n, (q, n) ∈ p.attached) ↔ q ≠ [] ∧ Wanted a find results context.includes p.source q := by
  obtain ⟨bs, hbs, hwell, hcovers⟩ := exists_assembled hm hscalar hresults h
  rw [exists_attached_iff (hwell.plans p hp), ← exists_bound_iff hbs]
  exact and_congr_right fun hq => hcovers.paths p hp q hq

/-- What is attached can be said on the includes and the entity types, without the plans. -/
theorem compile_attaches_iff (hm : a.model root = .ok m) (hscalar : m.isScalar = false)
    (hresults : a.resultSources root = .ok results)
    (h : (compile a root context find).1 = .ok compiled) :
    compiled.Attaches s q n ↔
      EndsIn a find s q n ∧ Wanted a find results context.includes s q := by
  obtain ⟨_, -, hwell, -⟩ := exists_assembled hm hscalar hresults h
  constructor
  · rintro ⟨p, hp, hs, hq⟩
    subst hs
    have hwanted := (compile_paths hm hscalar hresults h hp).mp ⟨n, hq⟩
    exact ⟨endsIn_of_attached (hwell.plans p hp) hq, hwanted.2⟩
  · rintro ⟨hends, hwanted⟩
    obtain ⟨i, hi, hs, hplanned, -⟩ := id hwanted
    obtain ⟨p, hp, rfl⟩ := (compile_sources hm hscalar hresults h).mpr
      ⟨i, hi, hs, hplanned, List.nil_prefix⟩
    obtain ⟨n', hn'⟩ := (compile_paths hm hscalar hresults h hp).mpr ⟨hends.ne_nil, hwanted⟩
    rw [hends.unique (endsIn_of_attached (hwell.plans p hp) hn')]
    exact ⟨p, hp, rfl, hn'⟩

theorem compile_perm (hm : a.model root = .ok m) (hresults : a.resultSources root = .ok results)
    (hperm : context'.includes.Perm context.includes) :
    ((∃ c', (compile a root context' find).1 = .ok c') ↔
      ∃ c, (compile a root context find).1 = .ok c) ∧
    ∀ c c', (compile a root context find).1 = .ok c → (compile a root context' find).1 = .ok c' →
      ∀ s q n, c'.Attaches s q n ↔ c.Attaches s q n := by
  cases hscalar : m.isScalar with
  | true =>
    rw [compile_of_scalar hm hscalar, compile_of_scalar hm hscalar]
    refine ⟨Iff.rfl, fun c c' h h' s q n => ?_⟩
    rw [← Except.ok.inj h, ← Except.ok.inj h']
  | false =>
    constructor
    · simp only [compile_ok_iff hm hscalar hresults, hperm.mem_iff]
    · intro c c' h h' s q n
      rw [compile_attaches_iff hm hscalar hresults h, compile_attaches_iff hm hscalar hresults h']
      simp only [Wanted, hperm.mem_iff]

/-- Includes compile to exactly what they ask for. A scalar result has no plans. Otherwise
compilation fails if and only if an include on a source of the result does not bind, and it names
the first one that does not. If it succeeds, a source has a plan if and only if an include on it is
planned for, and the paths of the plan are the parts of the paths of those includes. In another
order the includes succeed or fail alike, and attach the same paths with the same navigations to
each source. -/
theorem compile_attaches_exactly (a : Arena) (root : ModelId) (context : CompilationContext)
    (find : EntityLookup) {m : QueryModel} {results : List SourceId} (hm : a.model root = .ok m)
    (hresults : a.resultSources root = .ok results) :
    (m.isScalar = true → (compile a root context find).1 = .ok .empty) ∧
    (m.isScalar = false →
      (∀ error, (compile a root context find).1 = .error error ↔
        ∃ earlier i later, context.includes = earlier ++ i :: later ∧
          (∀ j ∈ earlier, ¬Unbound a find results j) ∧ Unbound a find results i ∧
          error = .includeNotBindable (".".intercalate i.2)) ∧
      ∀ compiled, (compile a root context find).1 = .ok compiled →
        (∀ s, (∃ p ∈ compiled.plans, p.source = s) ↔
          ∃ i ∈ context.includes, i.1.source = s ∧ ∃ ns, Planned a find results i ns) ∧
        ∀ p ∈ compiled.plans, ∀ q, (∃ n, (q, n) ∈ p.attached) ↔
          q ≠ [] ∧ ∃ i ∈ context.includes, i.1.source = p.source ∧
            (∃ ns, Planned a find results i ns) ∧ q <+: i.2) ∧
    ∀ context' : CompilationContext, context'.includes.Perm context.includes →
      ((∃ c', (compile a root context' find).1 = .ok c') ↔
        ∃ c, (compile a root context find).1 = .ok c) ∧
      ∀ c c', (compile a root context find).1 = .ok c →
        (compile a root context' find).1 = .ok c' →
        ∀ s q n, c'.Attaches s q n ↔ c.Attaches s q n := by
  refine ⟨compile_of_scalar hm, fun hscalar => ⟨fun error => compile_error_iff hm hscalar hresults,
    fun compiled h => ⟨fun s => ?_, fun p hp q => compile_paths hm hscalar hresults h hp⟩⟩,
    fun context' hperm => compile_perm hm hresults hperm⟩
  rw [compile_sources hm hscalar hresults h]
  simp [Wanted]

/-- The includes in another order. -/
def reversedContext : CompilationContext :=
  { overlappingContext with directives := overlapping.reverse }

/-- In another order the orders get other slots and loads, but the same entities. -/
theorem compile_attaches_exactly_overlapping :
    ∃ c c', (compile passedOrders 1 overlappingContext shop.find?).1 = .ok c ∧
      (compile passedOrders 1 reversedContext shop.find?).1 = .ok c' ∧ c' ≠ c ∧
      ∀ s q n, c'.Attaches s q n ↔ c.Attaches s q n := by
  have hexactly := compile_attaches_exactly passedOrders 1 overlappingContext shop.find? rfl rfl
  have hperm : reversedContext.includes.Perm overlappingContext.includes :=
    (List.reverse_perm overlapping).filterMap _
  exact ⟨_, _, rfl, rfl, by decide, (hexactly.2.2 reversedContext hperm).2 _ _ rfl rfl⟩

end Include

end QueryTree
