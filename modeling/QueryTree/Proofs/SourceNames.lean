import QueryTree.Include.Plan
import QueryTree.Model.Construction

/-! Names of sources. They are for the reader of a query: what a query returns and what is loaded
with it does not depend on them. -/

namespace QueryTree

def QuerySource.anonymous (s : QuerySource) : QuerySource := { s with name := "" }

/-- The arena without the names of its sources. -/
def Arena.anonymous (a : Arena) : Arena := { a with sources := a.sources.map (·.anonymous) }

namespace Arena

variable {a b : Arena}

theorem source?_anonymous (a : Arena) (s : SourceId) :
    a.anonymous.source? s = (a.source? s).map (·.anonymous) := by
  simp [anonymous, source?]

theorem anonymous_renameSource (a : Arena) (id : SourceId) (name : String) :
    (a.renameSource id name).anonymous = a.anonymous := by
  have hsources : (a.sources.modify id ({ · with name := name })).map (·.anonymous) =
      a.sources.map (·.anonymous) := by
    apply List.ext_getElem?
    intro s
    rw [List.getElem?_map, List.getElem?_map, List.getElem?_modify]
    cases a.sources[s]? with
    | none => rfl
    | some src =>
      by_cases hs : id = s
      · simp [hs, QuerySource.anonymous]
      · simp [hs]
  simp [anonymous, renameSource, hsources]

theorem anonymous_addSource (a : Arena) (src : QuerySource) :
    (a.addSource src).2.anonymous = (a.anonymous.addSource src.anonymous).2 := by
  simp [anonymous, addSource]

theorem anonymous_addModel (a : Arena) (m : QueryModel) :
    (a.addModel m).2.anonymous = (a.anonymous.addModel m).2 := rfl

end Arena

theorem Construction.adoptParam_anonymous (m : QueryModel) (lambda : Lambda) (c : Construction) :
    ∃ d, adoptParam m lambda c = .ok ((), d) ∧ d.arena.anonymous = c.arena.anonymous := by
  cases lambda with
  | mk params body =>
  cases params with
  | nil => exact ⟨c, rfl, rfl⟩
  | cons p params =>
    change ∃ d, adoptName m.select p c = _ ∧ _
    unfold adoptName
    split
    · split
      · exact ⟨_, rfl, Arena.anonymous_renameSource ..⟩
      · exact ⟨c, rfl, rfl⟩
    · exact ⟨c, rfl, rfl⟩

namespace Arena

/-! ### What a query returns -/

theorem underlying?_anonymous (a : Arena) (s : SourceId) :
    a.anonymous.underlying? s = a.underlying? s := by
  rw [underlying?, source?_anonymous, Option.bind_map]
  rfl

theorem entityTypeFrom_anonymous (a : Arena) (seen : List SourceId) (s : SourceId) :
    a.anonymous.entityTypeFrom seen s = a.entityTypeFrom seen s := by
  fun_induction Arena.entityTypeFrom a seen s with
  | case1 seen s hs => rw [entityTypeFrom_eq, if_pos hs]
  | case2 seen s hs hsrc =>
    rw [entityTypeFrom_eq, if_neg hs, source?_anonymous, hsrc]
    rfl
  | case3 seen s hs src hsrc type htype =>
    rw [entityTypeFrom_eq, if_neg hs, source?_anonymous, hsrc]
    simp [QuerySource.anonymous, htype]
  | case4 seen s hs src hsrc htype hkind =>
    rw [entityTypeFrom_eq, if_neg hs, source?_anonymous, hsrc]
    simp [QuerySource.anonymous, htype, hkind]
  | case5 seen s hs src hsrc htype hkind hbelow =>
    rw [entityTypeFrom_eq, if_neg hs, source?_anonymous, hsrc, underlying?_anonymous, hbelow]
    simp [QuerySource.anonymous, htype]
  | case6 seen s hs src hsrc htype hkind below hbelow ih =>
    rw [entityTypeFrom_eq, if_neg hs, source?_anonymous, hsrc, underlying?_anonymous, hbelow]
    simp [QuerySource.anonymous, htype, hkind, ih]

theorem entityType?_anonymous (a : Arena) (s : SourceId) :
    a.anonymous.entityType? s = a.entityType? s :=
  entityTypeFrom_anonymous a [] s

theorem sourcesFrom_anonymous (a : Arena) (seen : List SourceId) (start : Option SourceId) :
    a.anonymous.sourcesFrom seen start = a.sourcesFrom seen start := by
  fun_induction Arena.sourcesFrom a seen start with
  | case1 seen => rw [sourcesFrom_none]
  | case2 seen s hsrc => simp [sourcesFrom_some, source, source?_anonymous, hsrc, Except.bind]
  | case3 seen s src hsrc hend =>
    simp [sourcesFrom_some, source, source?_anonymous, hsrc, QuerySource.anonymous,
      hend, Except.bind]
  | case4 seen s src hsrc hgo ih =>
    rw [sourcesFrom_some, source, source?_anonymous, hsrc, underlying?_anonymous, ih]
    exact if_neg hgo

theorem resultSources_anonymous (a : Arena) (root : ModelId) :
    a.anonymous.resultSources root = a.resultSources root := by
  simp only [resultSources, sourcesFrom_anonymous]
  rfl

end Arena

/-! ### What is loaded with it -/

namespace Include

variable {a b : Arena}

theorem bindAll_anonymous (a : Arena) (find : EntityLookup) (results : List SourceId)
    (includes : List (AppliedDirective × List String)) :
    bindAll a.anonymous find results includes = bindAll a find results includes := by
  induction includes with
  | nil => rfl
  | cons asked rest ih =>
    obtain ⟨applied, path⟩ := asked
    simp only [bindAll, bound?, Arena.entityType?_anonymous, ih]

/-- Arenas that differ only in names have the same include plans. -/
theorem compile_eq_of_anonymous (h : a.anonymous = b.anonymous) (root : ModelId)
    (context : CompilationContext) (find : EntityLookup) :
    compile a root context find = compile b root context find := by
  have hcompile : ∀ a : Arena,
      compile a.anonymous root context find = compile a root context find := by
    intro a
    simp only [compile, Arena.resultSources_anonymous, bindAll_anonymous]
    rfl
  rw [← hcompile a, h, hcompile b]

end Include

end QueryTree
