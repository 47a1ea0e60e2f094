import QueryTree.Proofs.DirectiveWalk

/-! Extraction of directives. All models that the root leads to lose their directives and nothing
else; the context records each of these directives once, and its settings sum up what it records. -/

namespace QueryTree

/-! ### Contexts -/

def Directive.tracking? : Directive → Option Bool
  | tracking on => some on
  | _ => none

def Directive.tag? : Directive → Option String
  | tag text => some text
  | _ => none

namespace CompilationContext

/-- The settings of a context sum up its directives: the last tracking directive counts, and a tag
counts where it comes first. -/
structure SumsUp (c : CompilationContext) : Prop where
  tracking : c.tracking = (c.directives.filterMap (·.directive.tracking?)).getLast?
  tags : c.tags = (c.directives.filterMap (·.directive.tag?)).eraseDups
  ignoreFilters : c.ignoreFilters = true ↔ ∃ d ∈ c.directives, d.directive = .ignoreFilters

theorem sumsUp_ofDefault (b : TrackingBehavior) : (ofDefault b).SumsUp :=
  ⟨rfl, rfl, by simp [ofDefault]⟩

theorem eraseDups_concat {α : Type} [DecidableEq α] (l : List α) (x : α) :
    (l ++ [x]).eraseDups = if x ∈ l then l.eraseDups else l.eraseDups ++ [x] := by
  rw [List.eraseDups_append]
  split <;> simp [List.removeAll, *, List.eraseDups_cons]

theorem add_eq (c : CompilationContext) (d : AppliedDirective) :
    c.add d =
      { defaultTracking := c.defaultTracking
        tracking := d.directive.tracking?.or c.tracking
        tags := d.directive.tag?.elim c.tags fun text =>
          if text ∈ c.tags then c.tags else c.tags ++ [text]
        ignoreFilters := c.ignoreFilters || d.directive = .ignoreFilters
        directives := c.directives ++ [d] } := by
  obtain ⟨directive, source, model⟩ := d
  cases directive with
  | tag text =>
    by_cases hmem : text ∈ c.tags <;>
      simp [add, Directive.tracking?, Directive.tag?, hmem]
  | _ => simp [add, Directive.tracking?, Directive.tag?]

theorem SumsUp.add {c : CompilationContext} (h : c.SumsUp) (d : AppliedDirective) :
    (c.add d).SumsUp := by
  rw [add_eq]
  constructor
  · simp only [List.filterMap_append, List.getLast?_append, ← h.tracking]
    cases hd : d.directive.tracking? <;> simp [hd]
  · cases hd : d.directive.tag? with
    | none => simp [hd, h.tags]
    | some text =>
      have hmem : text ∈ c.tags ↔ text ∈ c.directives.filterMap (·.directive.tag?) := by
        rw [h.tags, List.mem_eraseDups]
      simp only [List.filterMap_append, List.filterMap_cons, List.filterMap_nil, hd,
        Option.elim_some, eraseDups_concat, ← h.tags, hmem]
  · simp [h.ignoreFilters, or_and_right, exists_or]

variable {c : CompilationContext} (ds : List AppliedDirective)

theorem directives_foldl_add : (ds.foldl add c).directives = c.directives ++ ds := by
  induction ds generalizing c with
  | nil => simp
  | cons d ds ih => simp [ih, add_eq]

theorem defaultTracking_foldl_add : (ds.foldl add c).defaultTracking = c.defaultTracking := by
  induction ds generalizing c with
  | nil => rfl
  | cons d ds ih => simp [ih, add_eq]

theorem SumsUp.foldl_add (h : c.SumsUp) : (ds.foldl CompilationContext.add c).SumsUp := by
  induction ds generalizing c with
  | nil => exact h
  | cons d ds ih => exact ih (h.add d)

end CompilationContext

/-! ### Models -/

/-- The directive that an operator of a model is. An include without a source is one of the main
source. -/
inductive Records (id : ModelId) (mainFrom : SourceId) :
    ResultOperator → AppliedDirective → Prop where
  | tracking (on : Bool) : Records id mainFrom (.tracking on) ⟨.tracking on, mainFrom, id⟩
  | tag (text : String) : Records id mainFrom (.tag text) ⟨.tag text, mainFrom, id⟩
  | ignoreFilters : Records id mainFrom .ignoreFilters ⟨.ignoreFilters, mainFrom, id⟩
  | includes (path : List String) :
      Records id mainFrom (.includes none path) ⟨.includes path, mainFrom, id⟩
  | includesFrom (source : SourceId) (path : List String) :
      Records id mainFrom (.includes (some source) path) ⟨.includes path, source, id⟩

/-- Operators of a model, those of them that stay, and the directives that the others are. -/
inductive Splits (id : ModelId) (mainFrom : SourceId) :
    List ResultOperator → List ResultOperator → List AppliedDirective → Prop where
  | nil : Splits id mainFrom [] [] []
  | stay {op : ResultOperator} {ops kept : List ResultOperator} {ds : List AppliedDirective}
      (hop : ∀ d, ¬ Records id mainFrom op d) (h : Splits id mainFrom ops kept ds) :
      Splits id mainFrom (op :: ops) (op :: kept) ds
  | move {op : ResultOperator} {ops kept : List ResultOperator} {d : AppliedDirective}
      {ds : List AppliedDirective} (hop : Records id mainFrom op d)
      (h : Splits id mainFrom ops kept ds) : Splits id mainFrom (op :: ops) kept (d :: ds)

theorem directive?_eq_some_iff {id : ModelId} {mainFrom : SourceId} {op : ResultOperator}
    {d : AppliedDirective} : directive? id mainFrom op = some d ↔ Records id mainFrom op d := by
  constructor
  · intro h
    cases op with
    | tracking on =>
      obtain rfl := Option.some.inj h
      exact .tracking on
    | tag text =>
      obtain rfl := Option.some.inj h
      exact .tag text
    | ignoreFilters =>
      obtain rfl := Option.some.inj h
      exact .ignoreFilters
    | includes source path =>
      obtain rfl := Option.some.inj h
      cases source with
      | none => exact .includes path
      | some source => exact .includesFrom source path
    | _ => cases h
  · intro h
    cases h <;> rfl

theorem isSome_directive? (id : ModelId) (mainFrom : SourceId) (op : ResultOperator) :
    (directive? id mainFrom op).isSome = op.isDirective := by
  cases op <;> rfl

theorem splits_iff {id : ModelId} {mainFrom : SourceId} {ops kept : List ResultOperator}
    {ds : List AppliedDirective} :
    Splits id mainFrom ops kept ds ↔
      kept = ops.filter (!·.isDirective) ∧ ds = ops.filterMap (directive? id mainFrom) := by
  induction ops generalizing kept ds with
  | nil =>
    constructor
    · intro h
      cases h
      exact ⟨rfl, rfl⟩
    · rintro ⟨rfl, rfl⟩
      exact .nil
  | cons op ops ih =>
    rw [List.filter_cons, List.filterMap_cons, ← isSome_directive? id mainFrom op]
    cases hd : directive? id mainFrom op with
    | none =>
      constructor
      · intro h
        cases h with
        | stay hop h => simpa using ih.mp h
        | move hop h => cases hd.symm.trans (directive?_eq_some_iff.mpr hop)
      · rintro ⟨rfl, rfl⟩
        refine .stay (fun d hop => ?_) (ih.mpr ⟨rfl, rfl⟩)
        cases hd.symm.trans (directive?_eq_some_iff.mpr hop)
    | some d =>
      constructor
      · intro h
        cases h with
        | stay hop h => exact absurd (directive?_eq_some_iff.mp hd) (hop d)
        | move hop h =>
          obtain rfl := Option.some.inj (hd.symm.trans (directive?_eq_some_iff.mpr hop))
          simpa using ih.mp h
      · rintro ⟨rfl, rfl⟩
        exact .move (directive?_eq_some_iff.mp hd) (ih.mpr ⟨rfl, rfl⟩)

theorem splits_bare (m : QueryModel) (id : ModelId) :
    Splits id m.mainFrom m.operators m.bare.operators (m.directives id) :=
  splits_iff.mpr ⟨rfl, rfl⟩

/-- The directives of a model that may be there. -/
def Arena.directivesAt (a : Arena) (k : ModelId) : List AppliedDirective :=
  (a.model? k).elim [] (·.directives k)

namespace AppliedDirective

variable {state : Arena × CompilationContext} {ids : List ModelId} {id k : ModelId}

theorem sources_takeFrom : (takeFrom state id).1.sources = state.1.sources := by
  unfold takeFrom
  split <;> rfl

theorem model?_takeFrom :
    (takeFrom state id).1.model? k =
      if k = id then (state.1.model? k).map .bare else state.1.model? k := by
  unfold takeFrom
  split
  next hnone =>
    split
    next heq => simp [heq, hnone]
    next => rfl
  next m hm =>
    have hid : id < state.1.models.length := (List.getElem?_eq_some_iff.mp hm).1
    split
    next heq =>
      rw [heq, hm, Arena.setModel, Arena.model?, List.getElem?_set_self hid, Option.map_some]
    next hne => simp [Arena.model?, Arena.setModel, Ne.symm hne]

theorem context_takeFrom :
    (takeFrom state id).2 = (state.1.directivesAt id).foldl .add state.2 := by
  unfold takeFrom Arena.directivesAt
  split
  next hnone => simp [hnone]
  next m hm => simp [hm]

theorem sources_foldl_takeFrom (ids : List ModelId) (state : Arena × CompilationContext) :
    (ids.foldl takeFrom state).1.sources = state.1.sources := by
  induction ids generalizing state with
  | nil => rfl
  | cons id ids ih => rw [List.foldl_cons, ih, sources_takeFrom]

/-- A step for each model of a list without repetitions: a later step finds its model as it was. -/
theorem model?_foldl_takeFrom (hnodup : ids.Nodup) (state : Arena × CompilationContext)
    (k : ModelId) : (ids.foldl takeFrom state).1.model? k =
      if k ∈ ids then (state.1.model? k).map .bare else state.1.model? k := by
  induction ids generalizing state with
  | nil => simp
  | cons id ids ih =>
    obtain ⟨hid, hnodup⟩ := List.nodup_cons.mp hnodup
    rw [List.foldl_cons, ih hnodup, model?_takeFrom]
    by_cases heq : k = id
    · subst heq
      simp [hid]
    · simp [heq]

theorem context_foldl_takeFrom (hnodup : ids.Nodup) :
    (ids.foldl takeFrom state).2 = (ids.flatMap state.1.directivesAt).foldl .add state.2 := by
  induction ids generalizing state with
  | nil => rfl
  | cons id ids ih =>
    obtain ⟨hid, hnodup⟩ := List.nodup_cons.mp hnodup
    have hsame :
        ids.flatMap (takeFrom state id).1.directivesAt = ids.flatMap state.1.directivesAt := by
      simp only [List.flatMap_def]
      congr 1
      apply List.map_congr_left
      intro k hk
      have hne : k ≠ id := fun heq => hid (heq ▸ hk)
      simp only [Arena.directivesAt, model?_takeFrom, if_neg hne]
    rw [List.foldl_cons, ih hnodup, hsame, context_takeFrom, List.flatMap_cons, List.foldl_append]

/-! ### Extraction -/

/-- Where all models that the root leads to are there with their sources, extraction succeeds,
also if subqueries are shared or lead back to where they came from. The models that the root leads
to lose their directives and keep the rest, other models and the sources stay as they are. The
context, to which directives may have been added before, records the directives of each model that
the root leads to once, in their order; those of a subquery come before those of a model that
refers to it, unless the subquery leads back to the model. The settings of the context sum up all
that it records. -/
theorem extract_moves_directives {a : Arena} {root : ModelId} (h : a.Resolves root)
    (b : TrackingBehavior) (earlier : List AppliedDirective) :
    ∃ (after : Arena) (context : CompilationContext) (ids : List ModelId)
      (moved : ModelId → List AppliedDirective),
      extract root (a, earlier.foldl .add (.ofDefault b)) = (.ok (), after, context) ∧
      after.sources = a.sources ∧
      (∀ k, a.Reaches root k → ∃ m m', a.model? k = some m ∧ after.model? k = some m' ∧
        m'.mainFrom = m.mainFrom ∧ m'.clauses = m.clauses ∧ m'.select = m.select ∧
        Splits k m.mainFrom m.operators m'.operators (moved k)) ∧
      (∀ k, ¬ a.Reaches root k → after.model? k = a.model? k) ∧
      ids.Nodup ∧ (∀ k, k ∈ ids ↔ a.Reaches root k) ∧
      context.directives = earlier ++ ids.flatMap moved ∧
      (∀ k j, a.Reaches root k → a.Refers k j → ¬ a.Reaches j k → [j, k].Sublist ids) ∧
      context.defaultTracking = b ∧
      context.tracking = (context.directives.filterMap (·.directive.tracking?)).getLast? ∧
      context.tags = (context.directives.filterMap (·.directive.tag?)).eraseDups ∧
      (context.ignoreFilters = true ↔ ∃ d ∈ context.directives, d.directive = .ignoreFilters) := by
  have hwalk : (a.postorder root).2 = none := h.postorder
  have hids : a.Postorder root (a.postorder root).1 := Arena.postorder_of_none hwalk
  let start : Arena × CompilationContext := (a, earlier.foldl .add (.ofDefault b))
  let moved := (a.postorder root).1.foldl takeFrom start
  have hextract : extract root start = (.ok (), moved.1, moved.2) := by
    simp only [extract_eq, start, hwalk, Option.elim_none, moved]
  have hcontext : moved.2 = (earlier ++ (a.postorder root).1.flatMap a.directivesAt).foldl .add
      (.ofDefault b) := by
    rw [List.foldl_append]
    exact context_foldl_takeFrom hids.nodup
  have hsums : moved.2.SumsUp := by
    rw [hcontext]
    exact (CompilationContext.sumsUp_ofDefault b).foldl_add _
  refine ⟨moved.1, moved.2, (a.postorder root).1, a.directivesAt, hextract,
    sources_foldl_takeFrom _ _, ?_, ?_, hids.nodup, hids.mem_iff, ?_, hids.after, ?_,
    hsums.tracking, hsums.tags, hsums.ignoreFilters⟩
  · intro k hk
    obtain ⟨m, hm, -⟩ := h k hk
    have hafter : moved.1.model? k = (a.model? k).map .bare :=
      (model?_foldl_takeFrom hids.nodup start k).trans (if_pos ((hids.mem_iff k).mpr hk))
    refine ⟨m, m.bare, hm, by rw [hafter, hm]; rfl, rfl, rfl, rfl, ?_⟩
    rw [Arena.directivesAt, hm]
    exact splits_bare m k
  · intro k hk
    exact (model?_foldl_takeFrom hids.nodup start k).trans
      (if_neg fun hin => hk ((hids.mem_iff k).mp hin))
  · rw [hcontext, CompilationContext.directives_foldl_add]
    rfl
  · rw [hcontext, CompilationContext.defaultTracking_foldl_add]
    rfl

/-- Two models that refer to each other, below a root that refers to both; a fourth model stands
apart. -/
def mutualQueries : Arena where
  sources := [⟨"c", .mainFrom, .entityQuery "Customer", some "Customer"⟩,
    ⟨"o", .mainFrom, .entityQuery "Order", some "Order"⟩, ⟨"x", .mainFrom, .subQuery 0, none⟩]
  models := [⟨0, [.filter (.subQuery 1)], .sourceRef 0,
      [.tracking false, .take (.constant (.int 5)), .includes none ["Orders"]]⟩,
    ⟨1, [.filter (.subQuery 0)], .sourceRef 1, [.tag "inner", .any]⟩,
    ⟨2, [.filter (.subQuery 1)], .sourceRef 2, [.ignoreFilters, .tracking true]⟩,
    ⟨0, [], .sourceRef 0, [.tag "apart"]⟩]

/-- The directives of the three models that the root leads to are moved, the include with the main
source of its model; the model apart keeps its tag. -/
theorem extract_moves_directives_mutual :
    ∃ after context, extract 2 (mutualQueries, .ofDefault .trackAll) = (.ok (), after, context) ∧
      (after.model? 0).map (·.operators) = some [.take (.constant (.int 5))] ∧
      (after.model? 1).map (·.operators) = some [.any] ∧
      after.model? 3 = mutualQueries.model? 3 ∧
      ⟨.includes ["Orders"], 0, 0⟩ ∈ context.directives ∧ context.ignoreFilters = true := by
  have hrefs : ∀ k j, k < 3 → mutualQueries.Refers k j → j < 3 := by
    rintro k j hk ⟨ms, hms, hj⟩
    have hbound : ∀ k < 3, ((mutualQueries.referencedSubqueries k).toOption.getD []).all (· < 3) =
        true := by decide
    have hall := hbound k hk
    rw [hms] at hall
    simpa using List.all_eq_true.mp hall j hj
  have hlt : ∀ k, mutualQueries.Reaches 2 k → k < 3 :=
    fun k hk => hk.closed (by decide) fun i j hi hr => hrefs i j hi hr
  have hresolves : mutualQueries.Resolves 2 := by
    intro k hk
    have hthere : ∀ k < 3, ((mutualQueries.model? k).elim false fun m =>
        m.declaredSources.all (· < mutualQueries.sources.length)) = true := by decide
    have hm := hthere k (hlt k hk)
    cases hmodel : mutualQueries.model? k with
    | none => simp [hmodel] at hm
    | some m => exact ⟨m, rfl, by simpa [hmodel] using hm⟩
  have hone : mutualQueries.Reaches 2 1 := (Arena.Reaches.refl 2).step ⟨_, rfl, by decide⟩
  have hzero : mutualQueries.Reaches 2 0 := hone.step ⟨_, rfl, by decide⟩
  obtain ⟨after, context, ids, moved, hextract, _, hreached, happart, _, hids, hdirectives, _, _, _,
    _, hignore⟩ := extract_moves_directives hresolves .trackAll []
  have hsplit : ∀ k m, mutualQueries.Reaches 2 k → mutualQueries.model? k = some m →
      (after.model? k).map (·.operators) = some (m.operators.filter (!·.isDirective)) ∧
        ∀ d ∈ m.operators.filterMap (directive? k m.mainFrom), d ∈ context.directives := by
    intro k m hk hm
    obtain ⟨n, n', hn, hn', -, -, -, hsplits⟩ := hreached k hk
    obtain rfl := Option.some.inj (hm.symm.trans hn)
    obtain ⟨hkept, hmoved⟩ := splits_iff.mp hsplits
    rw [hn', Option.map_some, hkept, ← hmoved, hdirectives]
    exact ⟨rfl, fun d hd => List.mem_append_right _ (List.mem_flatMap.mpr ⟨k, (hids k).mpr hk, hd⟩)⟩
  refine ⟨after, context, hextract, (hsplit 0 _ hzero rfl).1, (hsplit 1 _ hone rfl).1, ?_, ?_, ?_⟩
  · exact happart 3 fun hthree => absurd (hlt 3 hthree) (by decide)
  · exact (hsplit 0 _ hzero rfl).2 _ (by decide)
  · exact hignore.mpr ⟨⟨.ignoreFilters, 2, 2⟩, (hsplit 2 _ (.refl 2) rfl).2 _ (by decide), rfl⟩

end AppliedDirective

end QueryTree
