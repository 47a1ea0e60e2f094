import QueryTree.Model.Arena
import QueryTree.Proofs.Reference

/-! Scopes of arenas under construction. A model refers to sources of its own and of the models
around it, which are not in the arena yet. `scope` lists the sources of these open models; every
other source belongs to one model of the arena. -/

namespace QueryTree.Arena

variable {a b c : Arena} {scope wider : List SourceId} {m : QueryModel} {e : Expr}

/-- An expression of a model or the sequence of a source that it declares. -/
def Holds (a : Arena) (m : QueryModel) (e : Expr) : Prop :=
  e ∈ m.expressions ∨ ∃ s ∈ m.declaredSources, ∃ src, a.source? s = some src ∧ src.origin = e

/-- A source that a model refers to, itself or through its subqueries, and that neither the model
nor the subquery between declares. -/
inductive Escapes (a : Arena) (s : SourceId) : ModelId → Prop where
  | mention {k : ModelId} {m : QueryModel} {e : Expr} (hm : a.model? k = some m)
      (he : a.Holds m e) (hs : s ∈ e.sourceRefs) (hd : s ∉ m.declaredSources) : Escapes a s k
  | refer {k j : ModelId} {m : QueryModel} {e : Expr} (hm : a.model? k = some m)
      (he : a.Holds m e) (hj : j ∈ e.subqueries) (hs : Escapes a s j)
      (hd : s ∉ m.declaredSources) : Escapes a s k

/-- All references of an expression lead to sources in scope. -/
def Admits (a : Arena) (scope : List SourceId) (e : Expr) : Prop :=
  e.RefsIn (· ∈ scope) fun j => j < a.models.length ∧ ∀ s, a.Escapes s j → s ∈ scope

/-- The invariant of construction. -/
structure Sound (a : Arena) (scope : List SourceId) : Prop where
  /-- Subqueries come before the models that refer to them. -/
  descending : ∀ k m, a.model? k = some m → ∀ e, a.Holds m e → ∀ j ∈ e.subqueries, j < k
  /-- A source belongs to one model of the arena or to one open model. -/
  owned : (a.models.flatMap (·.declaredSources) ++ scope).Perm (List.range a.sources.length)
  /-- The sequence of a source reads earlier sources. -/
  earlier : ∀ s src, a.source? s = some src → ∀ r ∈ src.origin.sourceRefs, r < s

/-- A model in the making, inside models whose sources are in scope. -/
structure Open (a : Arena) (scope : List SourceId) (m : QueryModel) : Prop where
  sound : a.Sound (m.declaredSources ++ scope)
  admits : ∀ e, a.Holds m e → a.Admits (m.declaredSources ++ scope) e

/-- What later steps of a construction leave as it is. -/
structure Grows (a b : Arena) : Prop where
  models : a.models.length ≤ b.models.length
  sources : a.sources.length ≤ b.sources.length
  origins : ∀ s src, s < a.sources.length → b.source? s = some src →
    ∃ old, a.source? s = some old ∧ old.origin = src.origin
  escapes : ∀ k < a.models.length, ∀ s, b.Escapes s k → a.Escapes s k

/-! ### Growth -/

theorem Grows.refl (a : Arena) : a.Grows a :=
  ⟨Nat.le_refl _, Nat.le_refl _, fun _ src _ h => ⟨src, h, rfl⟩, fun _ _ _ h => h⟩

theorem source?_of_lt {s : SourceId} (h : s < a.sources.length) :
    ∃ src, a.source? s = some src := ⟨_, List.getElem?_eq_getElem h⟩

theorem model?_of_lt {k : ModelId} (h : k < a.models.length) : ∃ m, a.model? k = some m :=
  ⟨_, List.getElem?_eq_getElem h⟩

theorem Grows.trans (hab : a.Grows b) (hbc : b.Grows c) : a.Grows c where
  models := Nat.le_trans hab.models hbc.models
  sources := Nat.le_trans hab.sources hbc.sources
  origins := by
    intro s src hs h
    obtain ⟨mid, hmid, heq⟩ := hbc.origins s src (Nat.lt_of_lt_of_le hs hab.sources) h
    obtain ⟨old, hold, heq'⟩ := hab.origins s mid hs hmid
    exact ⟨old, hold, heq'.trans heq⟩
  escapes := by
    intro k hk s h
    exact hab.escapes k hk s (hbc.escapes k (Nat.lt_of_lt_of_le hk hab.models) s h)

theorem Admits.grow (h : a.Admits scope e) (hg : a.Grows b) : b.Admits scope e := by
  refine h.mono (fun _ hs => hs) ?_
  rintro j ⟨hj, hs⟩
  exact ⟨Nat.lt_of_lt_of_le hj hg.models, fun s he => hs s (hg.escapes j hj s he)⟩

theorem Admits.widen (h : a.Admits scope e) (hw : scope ⊆ wider) : a.Admits wider e :=
  h.mono (fun _ hs => hw hs) fun _ hj => ⟨hj.1, fun s he => hw (hj.2 s he)⟩

theorem Admits.strip (h : a.Admits scope e) : a.Admits scope e.strip := Expr.RefsIn.strip h

/-! ### Owners of sources -/

theorem Sound.lt_of_scope (h : a.Sound scope) {s : SourceId} (hs : s ∈ scope) :
    s < a.sources.length := by
  have hr := (h.owned.mem_iff (a := s)).mp (List.mem_append_right _ hs)
  exact List.mem_range.mp hr

theorem Sound.lt_of_declared (h : a.Sound scope) {k : ModelId} (hm : a.model? k = some m)
    {s : SourceId} (hs : s ∈ m.declaredSources) : s < a.sources.length := by
  have hmem : m ∈ a.models := List.mem_of_getElem? hm
  have hr := (h.owned.mem_iff (a := s)).mp
    (List.mem_append_left _ (List.mem_flatMap.mpr ⟨m, hmem, hs⟩))
  exact List.mem_range.mp hr

theorem Sound.perm (h : a.Sound scope) (hp : scope.Perm wider) : a.Sound wider :=
  ⟨h.descending, (hp.append_left _).symm.trans h.owned, h.earlier⟩

/-- The sequences of the sources of a model are those it had when they were added. -/
theorem Holds.back (hd : ∀ s ∈ m.declaredSources, s < a.sources.length)
    (ho : ∀ s src, s < a.sources.length → b.source? s = some src →
      ∃ old, a.source? s = some old ∧ old.origin = src.origin)
    (h : b.Holds m e) : a.Holds m e := by
  rcases h with h | ⟨s, hs, src, hsrc, rfl⟩
  · exact .inl h
  · obtain ⟨old, hold, heq⟩ := ho s src (hd s hs) hsrc
    exact .inr ⟨s, hs, old, hold, heq⟩

/-- An arena that keeps its models and the sequences of its sources grows. -/
theorem Sound.grows (h : a.Sound scope)
    (hm : ∀ k m, k < a.models.length → b.model? k = some m → a.model? k = some m)
    (hl : a.models.length ≤ b.models.length) (hl' : a.sources.length ≤ b.sources.length)
    (ho : ∀ s src, s < a.sources.length → b.source? s = some src →
      ∃ old, a.source? s = some old ∧ old.origin = src.origin) : a.Grows b := by
  refine ⟨hl, hl', ho, ?_⟩
  intro k hk s hs
  induction hs with
  | mention hmk he hs hd =>
    have hold := hm _ _ hk hmk
    exact .mention hold (he.back (fun _ => h.lt_of_declared hold) ho) hs hd
  | refer hmk he hj _ hd ih =>
    have hold := hm _ _ hk hmk
    have he := he.back (fun _ => h.lt_of_declared hold) ho
    exact .refer hold he hj (ih (Nat.lt_trans (h.descending _ _ hold _ he _ hj) hk)) hd

theorem Open.grow (h : a.Open scope m) (hg : a.Grows b)
    (hs : b.Sound (m.declaredSources ++ scope)) : b.Open scope m := by
  refine ⟨hs, fun e he => ?_⟩
  have hd : ∀ s ∈ m.declaredSources, s < a.sources.length :=
    fun s hs => h.sound.lt_of_scope (List.mem_append_left _ hs)
  exact (h.admits e (he.back hd hg.origins)).grow hg

/-! ### Changes of an arena -/

theorem empty_sound : empty.Sound [] :=
  ⟨by simp [empty, model?], by simp [empty], by simp [empty, source?]⟩

theorem source?_addSource (a : Arena) (new : QuerySource) (s : SourceId) :
    (a.addSource new).2.source? s =
      if s = a.sources.length then some new else a.source? s := by
  simp only [addSource, source?, List.getElem?_append]
  grind

theorem source?_renameSource (a : Arena) (id : SourceId) (name : String) (s : SourceId) :
    (a.renameSource id name).source? s =
      (a.source? s).map fun src => if id = s then { src with name := name } else src := by
  simp [renameSource, source?, List.getElem?_modify]

theorem model?_addModel (a : Arena) (new : QueryModel) (k : ModelId) :
    (a.addModel new).2.model? k = if k = a.models.length then some new else a.model? k := by
  simp only [addModel, model?, List.getElem?_append]
  grind

theorem Sound.addSource (h : a.Sound scope) (new : QuerySource) (he : a.Admits scope new.origin) :
    (a.addSource new).2.Sound (a.sources.length :: scope) ∧ a.Grows (a.addSource new).2 := by
  have hold : ∀ s src, s < a.sources.length → (a.addSource new).2.source? s = some src →
      ∃ old, a.source? s = some old ∧ old.origin = src.origin := by
    intro s src hs hsrc
    rw [source?_addSource, if_neg (Nat.ne_of_lt hs)] at hsrc
    exact ⟨src, hsrc, rfl⟩
  refine ⟨⟨?_, ?_, ?_⟩,
    h.grows (fun _ _ _ hm => hm) (Nat.le_refl _) (by simp [Arena.addSource]) hold⟩
  · intro k m hm e he j hj
    exact h.descending k m hm e (he.back (fun _ => h.lt_of_declared hm) hold) j hj
  · have hp : (a.models.flatMap (·.declaredSources) ++ a.sources.length :: scope).Perm
        (a.sources.length :: List.range a.sources.length) :=
      List.perm_middle.trans (h.owned.cons _)
    simp only [Arena.addSource, List.length_append, List.length_singleton, List.range_succ]
    exact hp.trans (List.perm_append_singleton _ _).symm
  · intro s src hsrc r hr
    rw [source?_addSource] at hsrc
    split at hsrc
    next hs =>
      obtain rfl := Option.some.inj hsrc
      rw [hs]
      exact h.lt_of_scope ((Expr.refsIn_iff.mp he).1 r hr)
    next => exact h.earlier s src hsrc r hr

/-- Names of sources play no part in scopes. -/
theorem Sound.renameSource (h : a.Sound scope) (id : SourceId) (name : String) :
    (a.renameSource id name).Sound scope ∧ a.Grows (a.renameSource id name) := by
  have hold : ∀ s src, (a.renameSource id name).source? s = some src →
      ∃ old, a.source? s = some old ∧ old.origin = src.origin := by
    intro s src hs
    simp only [Arena.renameSource, source?, List.getElem?_modify] at hs
    obtain ⟨old, hold, rfl⟩ := Option.map_eq_some_iff.mp hs
    refine ⟨old, hold, ?_⟩
    split <;> rfl
  have hlen : (a.renameSource id name).sources.length = a.sources.length := by
    simp [Arena.renameSource]
  refine ⟨⟨?_, ?_, ?_⟩,
    h.grows (fun _ _ _ hm => hm) (Nat.le_refl _) (Nat.le_of_eq hlen.symm) fun s src _ => hold s src⟩
  · intro k m hm e he j hj
    exact h.descending k m hm e
      (he.back (fun _ => h.lt_of_declared hm) fun s src _ => hold s src) j hj
  · rw [hlen]
    exact h.owned
  · intro s src hsrc r hr
    obtain ⟨old, hold, heq⟩ := hold s src hsrc
    exact h.earlier s old hold r (heq ▸ hr)

theorem Open.addModel (h : a.Open scope m) :
    (a.addModel m).2.Sound scope ∧ a.Grows (a.addModel m).2 ∧
      (a.addModel m).2.Admits scope (.subQuery a.models.length) := by
  have hmodel : ∀ k m', k < a.models.length → (a.addModel m).2.model? k = some m' →
      a.model? k = some m' := by
    intro k m' hk hm
    rwa [model?_addModel, if_neg (Nat.ne_of_lt hk)] at hm
  have hg : a.Grows (a.addModel m).2 :=
    h.sound.grows hmodel (by simp [Arena.addModel]) (Nat.le_refl _) fun _ src _ hs => ⟨src, hs, rfl⟩
  refine ⟨⟨?_, ?_, h.sound.earlier⟩, hg, ?_⟩
  · intro k m' hm e he j hj
    rw [model?_addModel] at hm
    split at hm
    next hk =>
      obtain rfl := Option.some.inj hm
      rw [hk]
      exact ((Expr.refsIn_iff.mp (h.admits e he)).2 j hj).1
    next => exact h.sound.descending k m' hm e he j hj
  · have hp := h.sound.owned
    simpa [Arena.addModel] using hp
  · refine Expr.refsIn_subQuery.mpr ⟨by simp [Arena.addModel], ?_⟩
    intro s hs
    -- the expressions of the new model reach its own sources and those in scope
    have outer : s ∈ m.declaredSources ++ scope → s ∉ m.declaredSources → s ∈ scope :=
      fun hs hd => (List.mem_append.mp hs).resolve_left hd
    cases hs with
    | mention hm he hs hd =>
      rw [model?_addModel, if_pos rfl] at hm
      obtain rfl := Option.some.inj hm
      exact outer ((Expr.refsIn_iff.mp (h.admits _ he)).1 s hs) hd
    | refer hm he hj hs hd =>
      rw [model?_addModel, if_pos rfl] at hm
      obtain rfl := Option.some.inj hm
      have hj := (Expr.refsIn_iff.mp (h.admits _ he)).2 _ hj
      exact outer (hj.2 s (hg.escapes _ hj.1 s hs)) hd

/-! ### Changes of an open model -/

/-- A model may rearrange its sources and take in admitted expressions. -/
theorem Open.update (h : a.Open scope m) {m' : QueryModel}
    (hd : m'.declaredSources.Perm m.declaredSources)
    (he : ∀ e ∈ m'.expressions, e ∈ m.expressions ∨ a.Admits (m.declaredSources ++ scope) e) :
    a.Open scope m' := by
  have hsub : m.declaredSources ++ scope ⊆ m'.declaredSources ++ scope :=
    (hd.symm.append_right scope).subset
  refine ⟨h.sound.perm (hd.symm.append_right scope), ?_⟩
  rintro e (hin | ⟨s, hs, hsrc⟩)
  · rcases he e hin with hin | hin
    · exact (h.admits e (.inl hin)).widen hsub
    · exact hin.widen hsub
  · exact (h.admits e (.inr ⟨s, hd.subset hs, hsrc⟩)).widen hsub

theorem Open.addClause (h : a.Open scope m) {clause : Clause} (hc : clause.source? = none)
    (he : ∀ e ∈ clause.expressions, a.Admits (m.declaredSources ++ scope) e) :
    a.Open scope (m.addClause clause) := by
  apply h.update
  · simp [QueryModel.declaredSources, QueryModel.addClause, hc]
  · intro e hin
    simp only [QueryModel.expressions, QueryModel.addClause, List.flatMap_append,
      List.flatMap_singleton, List.mem_append, List.mem_cons] at hin ⊢
    rcases hin with (hin | hin) | hin
    · exact .inl (.inl hin)
    · exact .inr (he e hin)
    · exact .inl (.inr hin)

theorem Open.addOperator (h : a.Open scope m) {op : ResultOperator} (ho : op.source? = none)
    (he : ∀ e ∈ op.expressions, a.Admits (m.declaredSources ++ scope) e) :
    a.Open scope (m.addOperator op) := by
  apply h.update
  · simp [QueryModel.declaredSources, QueryModel.addOperator, ho]
  · intro e hin
    simp only [QueryModel.expressions, QueryModel.addOperator, List.flatMap_append,
      List.flatMap_singleton, List.mem_append, List.mem_cons] at hin ⊢
    rcases hin with hin | hin | hin | hin
    · exact .inl (.inl hin)
    · exact .inl (.inr (.inl hin))
    · exact .inl (.inr (.inr hin))
    · exact .inr (he e hin)

theorem Open.setSelect (h : a.Open scope m) (he : a.Admits (m.declaredSources ++ scope) e) :
    a.Open scope { m with select := e } := by
  apply h.update
  · simp [QueryModel.declaredSources]
  · intro e' hin
    simp only [QueryModel.expressions, List.mem_append, List.mem_cons] at hin ⊢
    rcases hin with hin | rfl | hin
    · exact .inl (.inl hin)
    · exact .inr he
    · exact .inl (.inr (.inr hin))

theorem Open.select (h : a.Open scope m) : a.Admits (m.declaredSources ++ scope) m.select :=
  h.admits _ (.inl (by simp [QueryModel.expressions]))

theorem declared_addFrom (m : QueryModel) (s : SourceId) :
    (m.addClause (.additionalFrom s)).declaredSources.Perm (s :: m.declaredSources) := by
  simp only [QueryModel.declaredSources, QueryModel.addClause, List.filterMap_append,
    List.filterMap_cons, List.filterMap_nil, Clause.source?, List.append_assoc]
  exact (List.perm_middle.cons _).trans (List.Perm.swap _ _ _)

theorem scope_addFrom (m : QueryModel) (s : SourceId) (scope : List SourceId) :
    m.declaredSources ++ scope ⊆ (m.addClause (.additionalFrom s)).declaredSources ++ scope :=
  fun _ hs => ((declared_addFrom m s).append_right scope).symm.subset (List.mem_cons_of_mem _ hs)

theorem Open.addSource (h : a.Open scope m) (new : QuerySource)
    (he : a.Admits (m.declaredSources ++ scope) new.origin) :
    (a.addSource new).2.Open scope (m.addClause (.additionalFrom a.sources.length)) ∧
      a.Grows (a.addSource new).2 := by
  obtain ⟨hs, hg⟩ := h.sound.addSource new he
  have hp := declared_addFrom m a.sources.length
  have hsub := scope_addFrom m a.sources.length scope
  have hold : ∀ e, a.Holds m e → (a.addSource new).2.Admits
      ((m.addClause (.additionalFrom a.sources.length)).declaredSources ++ scope) e :=
    fun e hm => ((h.admits e hm).grow hg).widen hsub
  refine ⟨⟨hs.perm (hp.append_right scope).symm, ?_⟩, hg⟩
  rintro e (hin | ⟨s, hs, src, hsrc, rfl⟩)
  · apply hold e (.inl _)
    simpa [QueryModel.expressions, QueryModel.addClause, Clause.expressions] using hin
  · rw [source?_addSource] at hsrc
    split at hsrc
    next =>
      obtain rfl := Option.some.inj hsrc
      exact (he.grow hg).widen hsub
    next hne =>
      have hs := (List.mem_cons.mp (hp.subset hs)).resolve_left hne
      exact hold _ (.inr ⟨s, hs, src, hsrc, rfl⟩)

/-- The items of a source that a model has just declared are in scope. -/
theorem admits_declared {s : SourceId} :
    a.Admits ((m.addClause (.additionalFrom s)).declaredSources ++ scope) (.sourceRef s) := by
  simp [Admits, QueryModel.declaredSources, QueryModel.addClause, Clause.source?]

theorem Sound.ofSource (h : a.Sound scope) (new : QuerySource) (he : a.Admits scope new.origin) :
    (a.addSource new).2.Open scope (.ofSource a.sources.length) ∧ a.Grows (a.addSource new).2 := by
  obtain ⟨hs, hg⟩ := h.addSource new he
  refine ⟨⟨hs, ?_⟩, hg⟩
  rintro e (hin | ⟨s, hs, src, hsrc, rfl⟩)
  · have : e = .sourceRef a.sources.length := by
      simpa [QueryModel.expressions, QueryModel.ofSource] using hin
    simp [this, Admits, QueryModel.declaredSources, QueryModel.ofSource]
  · have : s = a.sources.length := by
      simpa [QueryModel.declaredSources, QueryModel.ofSource] using hs
    rw [source?_addSource, if_pos this] at hsrc
    obtain rfl := Option.some.inj hsrc
    exact (he.grow hg).widen (List.subset_append_right _ _)

end QueryTree.Arena
