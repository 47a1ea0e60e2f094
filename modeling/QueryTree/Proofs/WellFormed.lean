import QueryTree.Proofs.ConstructionRun
import QueryTree.Proofs.Rendering
import QueryTree.Proofs.Validation

/-! Well-formed arenas: references lead to earlier models, every source has one owner, and a model
refers only to sources of the models around it. Such an arena passes validation and has a text. What
construction returns is well-formed. -/

namespace QueryTree.Arena

variable {a : Arena} {root k j d : ModelId} {s : SourceId} {m : QueryModel} {e : Expr}
  {path : List ModelId}

def Declares (a : Arena) (k : ModelId) (s : SourceId) : Prop :=
  ∃ m, a.model? k = some m ∧ s ∈ m.declaredSources

/-- `s` occurs in an expression of model `k` or in the sequence of one of its sources. -/
def Mentions (a : Arena) (k : ModelId) (s : SourceId) : Prop :=
  ∃ es, a.modelExpressions k = .ok es ∧ ∃ e ∈ es, s ∈ e.sourceRefs

def Refers (a : Arena) (k j : ModelId) : Prop :=
  ∃ ms, a.referencedSubqueries k = .ok ms ∧ j ∈ ms

/-- The models on a way along references from `root` to a model, both ends included. -/
inductive Path (a : Arena) (root : ModelId) : List ModelId → ModelId → Prop where
  | start : Path a root [root] root
  | step {path : List ModelId} {k j : ModelId} (h : Path a root path k) (hr : a.Refers k j) :
      Path a root (j :: path) j

structure WellFormed (a : Arena) (root : ModelId) : Prop where
  last : root + 1 = a.models.length
  /-- The references of a model can be listed and lead to earlier models. -/
  descending : ∀ k < a.models.length,
    ∃ ms, a.referencedSubqueries k = .ok ms ∧ ∀ j ∈ ms, j < k
  declared : ∀ k s, a.Declares k s → s < a.sources.length
  owned : ∀ s < a.sources.length, ∃ k, a.Declares k s ∧ ∀ j, a.Declares j s → j = k
  earlier : ∀ s src, a.source? s = some src → ∀ r ∈ src.origin.sourceRefs, r < s
  /-- What a model mentions is declared by itself or by one model on all ways that lead to it. -/
  enclosed : ∀ k s, (∃ path, a.Path root path k) → a.Mentions k s →
    ∃ d, a.Declares d s ∧ ∀ path, a.Path root path k → d ∈ path

/-! ### Expressions of models -/

theorem Sound.modelExpressions (h : a.Sound []) (hm : a.model? k = some m) :
    ∃ es, a.modelExpressions k = .ok es :=
  (exists_modelExpressions_iff hm).mpr fun _ hs => h.lt_of_declared hm hs

theorem referencedSubqueries_of {es : List Expr} (h : a.modelExpressions k = .ok es) :
    a.referencedSubqueries k = .ok (es.flatMap (·.subqueries)) := by
  simp [referencedSubqueries, h, bind, Except.bind]

theorem refers_iff : a.Refers k j ↔
    ∃ es, a.modelExpressions k = .ok es ∧ ∃ e ∈ es, j ∈ e.subqueries := by
  unfold Refers
  cases h : a.modelExpressions k with
  | error error => simp [referencedSubqueries, h, bind, Except.bind]
  | ok es => simp [referencedSubqueries_of h]

theorem holds_of_modelExpressions {es : List Expr} (hes : a.modelExpressions k = .ok es)
    (he : e ∈ es) : ∃ m, a.model? k = some m ∧ a.Holds m e := by
  obtain ⟨m, hm⟩ := model?_of_lt (lt_of_modelExpressions hes)
  exact ⟨m, hm, (mem_modelExpressions hm hes).mp he⟩

/-! ### Owners and paths -/

theorem Sound.owner_unique (h : a.Sound []) (hk : a.Declares k s) (hj : a.Declares j s) :
    j = k := by
  obtain ⟨m, hm, hs⟩ := hk
  obtain ⟨m', hm', hs'⟩ := hj
  have hnodup : (a.models.flatMap (·.declaredSources)).Nodup := by
    have hp := h.owned.nodup_iff.mpr List.nodup_range
    rwa [List.append_nil] at hp
  have hpair := List.pairwise_iff_getElem.mp (List.pairwise_flatMap.mp hnodup).2
  obtain ⟨hk, rfl⟩ := List.getElem?_eq_some_iff.mp hm
  obtain ⟨hj, rfl⟩ := List.getElem?_eq_some_iff.mp hm'
  rcases Nat.lt_trichotomy j k with hlt | heq | hlt
  · exact absurd rfl (hpair j k hj hk hlt s hs' s hs)
  · exact heq
  · exact absurd rfl (hpair k j hk hj hlt s hs s hs')

theorem Sound.owner (h : a.Sound []) (hs : s < a.sources.length) : ∃ k, a.Declares k s := by
  have hmem := (h.owned.mem_iff (a := s)).mpr (List.mem_range.mpr hs)
  rw [List.append_nil] at hmem
  obtain ⟨m, hm, hd⟩ := List.mem_flatMap.mp hmem
  obtain ⟨k, hk⟩ := List.mem_iff_getElem?.mp hm
  exact ⟨k, m, hk, hd⟩

theorem Path.mem (h : a.Path root path k) : k ∈ path := by
  cases h <;> exact List.mem_cons_self

/-- A source that escapes a model is declared on the way to it, or escapes the root. -/
theorem escapes_along (hp : a.Path root path k) (hs : a.Escapes s k) :
    (∃ d ∈ path, a.Declares d s) ∨ a.Escapes s root := by
  induction hp with
  | start => exact .inr hs
  | @step path k j hp hr ih =>
    obtain ⟨es, hes, e, he, hj⟩ := refers_iff.mp hr
    obtain ⟨m, hm, hheld⟩ := holds_of_modelExpressions hes he
    have hpath : (∃ d ∈ path, a.Declares d s) → ∃ d ∈ j :: path, a.Declares d s :=
      fun ⟨d, hd, hs⟩ => ⟨d, List.mem_cons_of_mem _ hd, hs⟩
    by_cases hd : s ∈ m.declaredSources
    · exact .inl ⟨k, List.mem_cons_of_mem _ hp.mem, m, hm, hd⟩
    · exact (ih (.refer hm hheld hj hs hd)).imp_left hpath

/-- A sound arena whose last model needs nothing from outside is well-formed. -/
theorem Sound.wellFormed (h : a.Sound []) (hlast : root + 1 = a.models.length)
    (hclosed : ∀ s, ¬ a.Escapes s root) : a.WellFormed root where
  last := hlast
  descending := by
    intro k hk
    obtain ⟨m, hm⟩ := model?_of_lt hk
    obtain ⟨es, hes⟩ := h.modelExpressions hm
    refine ⟨_, referencedSubqueries_of hes, fun j hj => ?_⟩
    obtain ⟨e, he, hj⟩ := List.mem_flatMap.mp hj
    exact h.descending k m hm e ((mem_modelExpressions hm hes).mp he) j hj
  declared := fun _ _ ⟨_, hm, hs⟩ => h.lt_of_declared hm hs
  owned := by
    intro s hs
    obtain ⟨k, hk⟩ := h.owner hs
    exact ⟨k, hk, fun j hj => h.owner_unique hk hj⟩
  earlier := h.earlier
  enclosed := by
    rintro k s ⟨path, hp⟩ ⟨es, hes, e, he, hs⟩
    obtain ⟨m, hm, hheld⟩ := holds_of_modelExpressions hes he
    have on_path : ∀ path, a.Path root path k → ∃ d ∈ path, a.Declares d s := by
      intro path hp
      by_cases hd : s ∈ m.declaredSources
      · exact ⟨k, hp.mem, m, hm, hd⟩
      · exact (escapes_along hp (.mention hm hheld hs hd)).resolve_right (hclosed s)
    obtain ⟨d, _, hd⟩ := on_path path hp
    refine ⟨d, hd, fun path' hp' => ?_⟩
    obtain ⟨d', hmem, hd'⟩ := on_path path' hp'
    exact h.owner_unique hd hd' ▸ hmem

/-! ### Validation -/

theorem WellFormed.lt_of_path (h : a.WellFormed root) (hp : a.Path root path k) :
    k < a.models.length := by
  induction hp with
  | start => exact Nat.lt_of_succ_le (Nat.le_of_eq h.last)
  | step _ hr ih =>
    obtain ⟨ms, hms, hj⟩ := hr
    obtain ⟨ms', hms', hlt⟩ := h.descending _ ih
    obtain rfl : ms = ms' := Except.ok.inj (hms.symm.trans hms')
    exact Nat.lt_trans (hlt _ hj) ih

/-- The expressions of a model that the root reaches refer to sources of the arena and to earlier
models, which the root reaches too. -/
theorem WellFormed.expressions (h : a.WellFormed root) (hp : a.Path root path k) :
    ∃ es, a.modelExpressions k = .ok es ∧ ∀ e ∈ es, e.RefsIn (· < a.sources.length)
      fun j => j < k ∧ a.Path root (j :: path) j := by
  obtain ⟨ms, hms, hlt⟩ := h.descending k (h.lt_of_path hp)
  cases hes : a.modelExpressions k with
  | error error => simp [referencedSubqueries, hes, bind, Except.bind] at hms
  | ok es =>
    refine ⟨es, rfl, fun e he => Expr.refsIn_iff.mpr ⟨?_, ?_⟩⟩
    · intro s hs
      obtain ⟨d, hd, _⟩ := h.enclosed k s ⟨path, hp⟩ ⟨es, hes, e, he, hs⟩
      exact h.declared d s hd
    · intro j hj
      have hr : a.Refers k j := refers_iff.mpr ⟨es, hes, e, he, hj⟩
      rw [referencedSubqueries_of hes] at hms
      refine ⟨hlt j ?_, hp.step hr⟩
      rw [← Except.ok.inj hms]
      exact List.mem_flatMap.mpr ⟨e, he, hj⟩

theorem WellFormed.intact (h : a.WellFormed root) (hp : a.Path root path k) : a.Intact k := by
  obtain ⟨m, hm⟩ := model?_of_lt (h.lt_of_path hp)
  obtain ⟨es, hes, hrefs⟩ := h.expressions hp
  refine ⟨m, hm, fun s hs => h.declared k s ⟨m, hm, hs⟩, fun e he s hs => ?_⟩
  exact hrefs e ((mem_modelExpressions hm hes).mpr he) _ hs

theorem WellFormed.refers_of_nests (h : a.WellFormed root) (hp : a.Path root path k)
    (hnests : a.Nests k j) : a.Refers k j := by
  obtain ⟨m, e, hm, he, hj⟩ := hnests
  obtain ⟨es, hes, -⟩ := h.expressions hp
  exact refers_iff.mpr
    ⟨es, hes, e, (mem_modelExpressions hm hes).mpr he, Expr.mem_subqueries.mpr hj⟩

theorem WellFormed.validateFrom (h : a.WellFormed root) (pending seen : List ModelId)
    (hp : ∀ k ∈ pending, ∃ path, a.Path root path k) : a.validateFrom pending seen = .ok () := by
  apply validateFrom_of_intact
  intro p hpending k hk
  have hreached : ∃ path, a.Path root path k := by
    induction hk with
    | refl => exact hp p hpending
    | tail _ hnests ih =>
      obtain ⟨path, hpath⟩ := ih
      exact ⟨_, hpath.step (h.refers_of_nests hpath hnests)⟩
  obtain ⟨path, hpath⟩ := hreached
  exact h.intact hpath

/-! ### Text -/

/-- References descend, so nesting as deep as the number of a model is enough to write it. -/
theorem WellFormed.writeModel (h : a.WellFormed root) (depth : Nat) (hk : k < depth)
    (hp : a.Path root path k) : (a.writeModel depth k).fault = none := by
  induction depth generalizing k path with
  | zero => exact absurd hk (Nat.not_lt_zero k)
  | succ depth ih =>
    obtain ⟨es, hes, hrefs⟩ := h.expressions hp
    obtain ⟨m, hm⟩ := model?_of_lt (lt_of_modelExpressions hes)
    simp only [Arena.writeModel, hm]
    have hsource : ∀ s, s < a.sources.length → (a.writeSourceName s).fault = none := by
      intro s hs
      obtain ⟨src, hsrc⟩ := source?_of_lt hs
      simp [writeSourceName, hsrc]
    have hheld : ∀ e, a.Holds m e →
        Naming.Covers
          ⟨a.writeSourceName, fun sub => "\x7b" ++ a.writeModel depth sub ++ "\x7d"⟩ e := by
      intro e he
      refine (hrefs e ((mem_modelExpressions hm hes).mpr he)).mono hsource ?_
      rintro j ⟨hj, hpath⟩
      simpa using ih (Nat.lt_of_lt_of_le hj (Nat.le_of_lt_succ hk)) hpath
    apply writeParts_fault
    · intro s hs
      obtain ⟨src, hsrc⟩ := source?_of_lt (h.declared k s ⟨m, hm, hs⟩)
      exact ⟨src, hsrc, hheld _ (.inr ⟨s, hs, src, hsrc, rfl⟩)⟩
    · exact fun e he => hheld e (.inl he)

end QueryTree.Arena

namespace QueryTree.Builder

open Construction

/-- An expression without references is built into a sound arena, and the last model needs no source
of another. -/
theorem build_sound {b : Builder} (hpass : ∀ p ∈ b.passes, p.KeepsRefs) (limit : Nat) {e : Expr}
    (hs : e.sourceRefs = []) (hq : e.subqueries = []) :
    Yields Refusal (fun built => built.arena.Sound [] ∧
      built.root + 1 = built.arena.models.length ∧ ∀ s, ¬ built.arena.Escapes s built.root)
      (b.build limit e) := by
  have he : Arena.empty.Admits [] e := Expr.refsIn_iff.mpr (by simp [hs, hq])
  refine Yields.bind (buildChain_builds hpass limit [] ⟨.empty, []⟩ e Arena.empty_sound he) ?_
  rintro ⟨m, c⟩ h
  obtain ⟨hsound, _, hadmits⟩ := h.model.addModel
  have hroot := Expr.refsIn_subQuery.mp hadmits
  exact ⟨hsound, by simp, fun s he => List.not_mem_nil (hroot.2 s he)⟩

theorem standard_keepsRefs (registry : Registry) (limit : Nat) (ambient : Ambient) :
    ∀ p ∈ (Builder.standard registry limit ambient).passes, p.KeepsRefs := by
  intro p hp
  rcases List.mem_cons.mp hp with rfl | hp
  · exact Pass.normalize_keepsRefs limit
  · obtain rfl := List.mem_singleton.mp hp
    exact Pass.foldConstants_keepsRefs _

/-- Construction from an expression without references returns a well-formed arena; hence it passes
validation and its root has a text. -/
theorem build_wellFormed (registry : Registry) (ambient : Ambient) (limit depth : Nat) (e : Expr)
    (hs : e.sourceRefs = []) (hq : e.subqueries = []) (built : BuiltQuery)
    (hb : (Builder.standard registry limit ambient).build depth e = .ok built) :
    built.arena.WellFormed built.root ∧ built.arena.validate built.root = .ok () ∧
      (built.arena.writeModel built.arena.depth built.root).fault = none := by
  have hbuilt := build_sound (standard_keepsRefs registry limit ambient) depth hs hq
  rw [hb] at hbuilt
  obtain ⟨hsound, hlast, hclosed⟩ := hbuilt
  have hwell := hsound.wellFormed hlast hclosed
  refine ⟨hwell, ?_, ?_⟩
  · apply hwell.validateFrom
    intro k hk
    obtain rfl := List.mem_singleton.mp hk
    exact ⟨_, .start⟩
  · apply hwell.writeModel _ _ .start
    rw [Arena.depth, ← hlast]
    exact Nat.lt_succ_of_lt (Nat.lt_succ_self _)

/-- Orders for which there is a customer: the inner chain reads the source of the outer one. -/
def ordersWithCustomer : Expr :=
  .staticCall (.queryable "Where" 2) [.entityQuery "Order", .lambda ["o"]
    (.staticCall (.queryable "Any" 2) [.entityQuery "Customer", .lambda ["c"]
      (.binary .eq (.member (.var "c") ⟨"Customer", "Id"⟩)
        (.member (.var "o") ⟨"Order", "CustomerId"⟩))])]

theorem build_wellFormed_correlated :
    ∃ built, (Builder.standard .standard 4 ⟨⟨0, 0⟩, fun _ => .empty⟩).build 4 ordersWithCustomer =
        .ok built ∧
      built.arena.WellFormed built.root ∧ built.arena.validate built.root = .ok () ∧
      (built.arena.writeModel built.arena.depth built.root).fault = none := by
  have hok : ((Builder.standard .standard 4 ⟨⟨0, 0⟩, fun _ => .empty⟩).build 4
      ordersWithCustomer).isOk = true := by decide +kernel
  cases hb : (Builder.standard .standard 4 ⟨⟨0, 0⟩, fun _ => .empty⟩).build 4
      ordersWithCustomer with
  | error error =>
    rw [hb] at hok
    contradiction
  | ok built => exact ⟨built, rfl, build_wellFormed .standard _ 4 4 _ rfl rfl built hb⟩

end QueryTree.Builder
