import QueryTree.Proofs.ConstructionResult
import QueryTree.Proofs.DirectiveWalk

/-! The spine of a model: the models whose items its main source hands on, one below the other. A
later operator of a chain finds the conditions of the earlier ones in its own model or on the
spine. -/

namespace QueryTree

/-- The model ranges over the same items as another one and keeps its conditions. -/
structure QueryModel.Retains (n m : QueryModel) : Prop where
  mainFrom : n.mainFrom = m.mainFrom
  filters : ∀ predicate, .filter predicate ∈ m.clauses → .filter predicate ∈ n.clauses

namespace QueryModel.Retains

variable {l m n : QueryModel}

theorem refl (m : QueryModel) : m.Retains m := ⟨rfl, fun _ h => h⟩

theorem trans (h : n.Retains m) (h' : m.Retains l) : n.Retains l :=
  ⟨h.mainFrom.trans h'.mainFrom, fun p hp => h.filters p (h'.filters p hp)⟩

theorem addClause (m : QueryModel) (c : Clause) : (m.addClause c).Retains m :=
  ⟨rfl, fun _ hp => List.mem_append_left _ hp⟩

theorem extendOrdering (key : SortKey) (m : QueryModel) :
    QueryModel.Retains { m with clauses := Construction.extendOrdering key m.clauses } m := by
  refine ⟨rfl, fun p hp => ?_⟩
  change Clause.filter p ∈ Construction.extendOrdering key m.clauses
  generalize m.clauses = clauses at hp ⊢
  fun_induction Construction.extendOrdering key clauses with
  | case1 => exact hp
  | case2 keys => simp at hp
  | case3 c cs hc ih =>
    rcases List.mem_cons.mp hp with rfl | hp
    · exact List.mem_cons_self
    · exact List.mem_cons_of_mem _ (ih hp)

end QueryModel.Retains

namespace Arena

variable {a b : Arena} {root j k : ModelId} {s : SourceId} {l m n : QueryModel}

/-- Later arenas keep models and sequences. -/
structure Extends (a b : Arena) : Prop where
  models : a.models <+: b.models
  origins : ∀ s src, a.source? s = some src →
    ∃ src', b.source? s = some src' ∧ src'.origin = src.origin

theorem Extends.refl (a : Arena) : a.Extends a := ⟨List.prefix_rfl, fun _ src h => ⟨src, h, rfl⟩⟩

theorem Extends.trans {c : Arena} (h : a.Extends b) (h' : b.Extends c) : a.Extends c where
  models := h.models.trans h'.models
  origins s src hs := by
    obtain ⟨src', hs', heq⟩ := h.origins s src hs
    obtain ⟨src'', hs'', heq'⟩ := h'.origins s src' hs'
    exact ⟨src'', hs'', heq'.trans heq⟩

theorem Extends.model? (h : a.Extends b) (hm : a.model? k = some m) : b.model? k = some m := by
  obtain ⟨later, hlater⟩ := h.models
  have hk : k < a.models.length := (List.getElem?_eq_some_iff.mp hm).1
  rw [Arena.model?, ← hlater, List.getElem?_append_left hk]
  exact hm

theorem extends_addModel (a : Arena) (m : QueryModel) : a.Extends (a.addModel m).2 :=
  ⟨List.prefix_append _ _, fun _ src h => ⟨src, h, rfl⟩⟩

theorem extends_addSource (a : Arena) (new : QuerySource) : a.Extends (a.addSource new).2 := by
  refine ⟨List.prefix_rfl, fun s src hsrc => ⟨src, ?_, rfl⟩⟩
  have hs : s < a.sources.length := (List.getElem?_eq_some_iff.mp hsrc).1
  rw [source?_addSource, if_neg (Nat.ne_of_lt hs)]
  exact hsrc

theorem extends_renameSource (a : Arena) (id : SourceId) (name : String) :
    a.Extends (a.renameSource id name) := by
  refine ⟨List.prefix_rfl, fun s src hsrc => ?_⟩
  rw [source?_renameSource, hsrc]
  refine ⟨_, rfl, ?_⟩
  split <;> rfl

/-- The other arena has all models with their main sources and conditions, and all sequences. -/
structure Keeps (a b : Arena) : Prop where
  models : ∀ k m, a.model? k = some m → ∃ n, b.model? k = some n ∧ n.Retains m
  origins : ∀ s src, a.source? s = some src →
    ∃ src', b.source? s = some src' ∧ src'.origin = src.origin

theorem Keeps.refl (a : Arena) : a.Keeps a :=
  ⟨fun _ m hm => ⟨m, hm, .refl m⟩, fun _ src h => ⟨src, h, rfl⟩⟩

theorem Keeps.trans {c : Arena} (h : a.Keeps b) (h' : b.Keeps c) : a.Keeps c where
  models k m hm := by
    obtain ⟨n, hn, hretains⟩ := h.models k m hm
    obtain ⟨l, hl, hretains'⟩ := h'.models k n hn
    exact ⟨l, hl, hretains'.trans hretains⟩
  origins s src hs := by
    obtain ⟨src', hs', heq⟩ := h.origins s src hs
    obtain ⟨src'', hs'', heq'⟩ := h'.origins s src' hs'
    exact ⟨src'', hs'', heq'.trans heq⟩

theorem Extends.keeps (h : a.Extends b) : a.Keeps b :=
  ⟨fun _ m hm => ⟨m, h.model? hm, .refl m⟩, h.origins⟩

/-! ### The spine -/

/-- Model `k` is on the spine of the models with main source `s`. -/
inductive Underlies (a : Arena) : SourceId → ModelId → Prop where
  | direct {s : SourceId} {src : QuerySource} {k : ModelId} (hs : a.source? s = some src)
      (ho : src.origin = .subQuery k) : Underlies a s k
  | further {s : SourceId} {src : QuerySource} {j k : ModelId} {m : QueryModel}
      (hs : a.source? s = some src) (ho : src.origin = .subQuery j) (hm : a.model? j = some m)
      (h : Underlies a m.mainFrom k) : Underlies a s k

theorem Underlies.trans (h : a.Underlies s j) (hm : a.model? j = some m)
    (hk : a.Underlies m.mainFrom k) : a.Underlies s k := by
  induction h with
  | direct hs ho => exact .further hs ho hm hk
  | further hs ho hm' _ ih => exact .further hs ho hm' (ih hm)

theorem Underlies.keep (h : a.Underlies s k) (hab : a.Keeps b) : b.Underlies s k := by
  induction h with
  | direct hs ho =>
    obtain ⟨src', hs', heq⟩ := hab.origins _ _ hs
    exact .direct hs' (heq.trans ho)
  | further hs ho hm _ ih =>
    obtain ⟨src', hs', heq⟩ := hab.origins _ _ hs
    obtain ⟨n, hn, hretains⟩ := hab.models _ _ hm
    exact .further hs' (heq.trans ho) hn (hretains.mainFrom ▸ ih)

theorem Underlies.extend (h : a.Underlies s k) (hab : a.Extends b) : b.Underlies s k :=
  h.keep hab.keeps

theorem Underlies.reaches (h : a.Underlies m.mainFrom k) (hroot : a.model? root = some m)
    (hread : ∀ k, a.Reaches root k → ∃ ms, a.referencedSubqueries k = .ok ms) :
    a.Reaches root k := by
  have hrefers : ∀ {i j : ModelId} {m : QueryModel} {src : QuerySource}, a.Reaches root i →
      a.model? i = some m → a.source? m.mainFrom = some src → src.origin = .subQuery j →
      a.Reaches root j := by
    intro i j m src hi hm hs ho
    obtain ⟨ms, hms⟩ := hread i hi
    obtain ⟨es, hes, -⟩ := bind_eq_ok.mp hms
    have hin : src.origin ∈ es :=
      (mem_modelExpressions hm hes).mpr (.inr ⟨_, List.mem_cons_self, src, hs, rfl⟩)
    exact hi.step (refers_iff.mpr ⟨es, hes, _, hin, by simp [ho, Expr.subqueries, Expr.nodes]⟩)
  -- along the spine, each model is reached from the one above it
  suffices hall : ∀ {s}, a.Underlies s k → ∀ i m, a.Reaches root i → a.model? i = some m →
      m.mainFrom = s → a.Reaches root k from hall h root m (.refl root) hroot rfl
  clear h hroot
  intro s h
  induction h with
  | direct hs ho =>
    rintro i m hi hm rfl
    exact hrefers hi hm hs ho
  | further hs ho hm' _ ih =>
    rintro i m hi hm rfl
    exact ih _ _ (hrefers hi hm hs ho) hm' rfl

/-- The conditions of a model are found in another one or on its spine. -/
def Rests (a : Arena) (n m : QueryModel) : Prop :=
  n.Retains m ∨ ∃ k below, a.Underlies n.mainFrom k ∧ a.model? k = some below ∧ below.Retains m

theorem Rests.extend (h : a.Rests n m) (hab : a.Extends b) : b.Rests n m := by
  rcases h with h | ⟨k, below, hk, hm, h⟩
  · exact .inl h
  · exact .inr ⟨k, below, hk.extend hab, hab.model? hm, h⟩

theorem Rests.over (h : a.Rests m l) (hn : n.Retains m) : a.Rests n l := by
  rcases h with h | ⟨k, below, hk, hm, h⟩
  · exact .inl (hn.trans h)
  · exact .inr ⟨k, below, hn.mainFrom ▸ hk, hm, h⟩

theorem Rests.above {src : QuerySource} (h : a.Rests m l) (hs : a.source? s = some src)
    (ho : src.origin = .subQuery j) (hm : a.model? j = some m) : a.Rests (.ofSource s) l := by
  have hj : a.Underlies (QueryModel.ofSource s).mainFrom j := .direct hs ho
  rcases h with h | ⟨k, below, hk, hbelow, h⟩
  · exact .inr ⟨j, m, hj, hm, h⟩
  · exact .inr ⟨k, below, hj.trans hm hk, hbelow, h⟩

/-- An expression is a condition on the items of a model: a filter of the model or of one on its
spine. -/
def Filtered (a : Arena) (m : QueryModel) (predicate : Expr) : Prop :=
  .filter predicate ∈ m.clauses ∨
    ∃ k below, a.Underlies m.mainFrom k ∧ a.model? k = some below ∧
      .filter predicate ∈ below.clauses

theorem Rests.filtered {predicate : Expr} (h : a.Rests n m) (hp : .filter predicate ∈ m.clauses) :
    a.Filtered n predicate := by
  rcases h with h | ⟨k, below, hk, hm, h⟩
  · exact .inl (h.filters _ hp)
  · exact .inr ⟨k, below, hk, hm, h.filters _ hp⟩

theorem Filtered.keep {predicate : Expr} (h : a.Filtered m predicate) (hab : a.Keeps b)
    (hn : n.Retains m) : b.Filtered n predicate := by
  rcases h with h | ⟨k, below, hk, hm, h⟩
  · exact .inl (hn.filters _ h)
  · obtain ⟨below', hm', hretains⟩ := hab.models _ _ hm
    exact .inr ⟨k, below', hn.mainFrom ▸ hk.keep hab, hm', hretains.filters _ h⟩

end Arena

end QueryTree
