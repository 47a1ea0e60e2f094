import Mathlib.Logic.Relation
import QueryTree.Model.Validation
import QueryTree.Proofs.ArenaScope

/-! Validation of arenas. References may lead nowhere and models may contain each other, so a model
counts as reached if a way along subqueries leads to it. Validation meets every such model once, and
it succeeds just if all of them, the sources they declare and the sources they refer to are in the
arena. -/

namespace QueryTree.Arena

variable {a : Arena} {root k j : ModelId} {m : QueryModel} {e : Expr} {pending seen : List ModelId}

/-! ### Expressions of models -/

theorem exists_origins_iff {ids : List SourceId} :
    (∃ es, a.origins ids = .ok es) ↔ ∀ s ∈ ids, s < a.sources.length := by
  induction ids with
  | nil => simp [origins]
  | cons id ids ih =>
    rw [List.forall_mem_cons, ← ih]
    constructor
    · rintro ⟨es, hes⟩
      obtain ⟨src, hsrc, hes⟩ := bind_eq_ok.mp hes
      obtain ⟨rest, hrest, -⟩ := bind_eq_ok.mp hes
      refine ⟨?_, rest, hrest⟩
      by_contra hid
      simp [source, source?, List.getElem?_eq_none (Nat.le_of_not_lt hid)] at hsrc
    · rintro ⟨hid, rest, hrest⟩
      obtain ⟨src, hsrc⟩ := source?_of_lt hid
      exact ⟨src.origin :: rest, by simp [origins, source, hsrc, hrest, bind, Except.bind]⟩

theorem mem_origins {ids : List SourceId} {es : List Expr} (h : a.origins ids = .ok es) :
    e ∈ es ↔ ∃ s ∈ ids, ∃ src, a.source? s = some src ∧ src.origin = e := by
  induction ids generalizing es with
  | nil =>
    obtain rfl := Except.ok.inj h
    simp
  | cons id ids ih =>
    cases hsrc : a.source? id with
    | none => simp [origins, source, hsrc, bind, Except.bind] at h
    | some src =>
      cases hes : a.origins ids with
      | error error => simp [origins, source, hsrc, hes, bind, Except.bind] at h
      | ok rest =>
        obtain rfl : src.origin :: rest = es := by
          simpa [origins, source, hsrc, hes, bind, Except.bind] using h
        simp [ih hes, hsrc, eq_comm]

theorem modelExpressions_of_model? (hm : a.model? k = some m) :
    a.modelExpressions k = (a.origins m.declaredSources).map (· ++ m.expressions) := by
  simp only [modelExpressions, model, hm, bind, Except.bind]
  cases a.origins m.declaredSources <;> rfl

/-- The expressions of a model are its own and the sequences of its sources. -/
theorem mem_modelExpressions {es : List Expr} (hm : a.model? k = some m)
    (hes : a.modelExpressions k = .ok es) : e ∈ es ↔ a.Holds m e := by
  rw [modelExpressions_of_model? hm] at hes
  cases ho : a.origins m.declaredSources with
  | error error => simp [ho, Except.map] at hes
  | ok os =>
    obtain rfl : os ++ m.expressions = es := by simpa [ho, Except.map] using hes
    rw [List.mem_append, mem_origins ho]
    exact Or.comm

/-- The expressions of a model can be listed if its sources are there. -/
theorem exists_modelExpressions_iff (hm : a.model? k = some m) :
    (∃ es, a.modelExpressions k = .ok es) ↔ ∀ s ∈ m.declaredSources, s < a.sources.length := by
  rw [modelExpressions_of_model? hm, ← exists_origins_iff]
  cases a.origins m.declaredSources <;> simp [Except.map]

/-! ### Checking one model -/

theorem checkExpression_eq_ok_iff {found : List ModelId} :
    a.checkExpression k e = .ok found ↔
      found = e.subqueries ∧ e.RefsIn (· < a.sources.length) (· < a.models.length) := by
  have hsources : (e.sourceRefs.any fun s => (a.source? s).isNone) = false ↔
      ∀ s ∈ e.sourceRefs, s < a.sources.length := by
    simp [source?]
  have hmodels : (e.subqueries.find? fun j => (a.model? j).isNone) = none ↔
      ∀ j ∈ e.subqueries, j < a.models.length := by
    simp [model?]
  rw [Expr.refsIn_iff, ← hsources, ← hmodels, checkExpression]
  cases e.sourceRefs.any fun s => (a.source? s).isNone with
  | true => simp
  | false =>
    cases e.subqueries.find? fun j => (a.model? j).isNone with
    | none => simp [eq_comm]
    | some j => simp

theorem checkExpressions_eq_ok_iff {es : List Expr} {found : List ModelId} :
    a.checkExpressions k es = .ok found ↔ found = es.flatMap (·.subqueries) ∧
      ∀ e ∈ es, e.RefsIn (· < a.sources.length) (· < a.models.length) := by
  induction es generalizing found with
  | nil => simp [checkExpressions, eq_comm]
  | cons e es ih =>
    simp only [checkExpressions, bind_eq_ok, checkExpression_eq_ok_iff, ih, List.forall_mem_cons,
      List.flatMap_cons]
    constructor
    · rintro ⟨-, ⟨rfl, he⟩, -, ⟨rfl, hes⟩, hfound⟩
      exact ⟨(Except.ok.inj hfound).symm, he, hes⟩
    · rintro ⟨rfl, he, hes⟩
      exact ⟨_, ⟨rfl, he⟩, _, ⟨rfl, hes⟩, rfl⟩

/-- Model `j` is a subquery in an expression of model `k` or in the sequence of one of its
sources. -/
def Nests (a : Arena) (k j : ModelId) : Prop :=
  ∃ m e, a.model? k = some m ∧ a.Holds m e ∧ .subQuery j ∈ e.nodes

/-- Model `k` is in the arena, and so are the sources that it declares and those that it refers
to. -/
def Intact (a : Arena) (k : ModelId) : Prop :=
  ∃ m, a.model? k = some m ∧ (∀ s ∈ m.declaredSources, s < a.sources.length) ∧
    ∀ e, a.Holds m e → ∀ s, .sourceRef s ∈ e.nodes → s < a.sources.length

theorem Intact.lt (h : a.Intact k) : k < a.models.length := by
  obtain ⟨m, hm, -⟩ := h
  exact (List.getElem?_eq_some_iff.mp hm).1

/-- A model that passes its check is intact, and the check finds the models nested in it. -/
theorem intact_of_checkExpressions {es : List Expr} {found : List ModelId}
    (hes : a.modelExpressions k = .ok es) (hfound : a.checkExpressions k es = .ok found) :
    a.Intact k ∧ ∀ j, j ∈ found ↔ a.Nests k j := by
  obtain ⟨m, hm⟩ := model?_of_lt (lt_of_modelExpressions hes)
  obtain ⟨rfl, hrefs⟩ := checkExpressions_eq_ok_iff.mp hfound
  refine ⟨⟨m, hm, (exists_modelExpressions_iff hm).mp ⟨es, hes⟩, ?_⟩, ?_⟩
  · intro e he s hs
    exact hrefs e ((mem_modelExpressions hm hes).mpr he) _ hs
  · intro j
    simp only [List.mem_flatMap, Expr.mem_subqueries, mem_modelExpressions hm hes]
    constructor
    · rintro ⟨e, he, hj⟩
      exact ⟨m, e, hm, he, hj⟩
    · rintro ⟨m', e, hm', he, hj⟩
      obtain rfl := Option.some.inj (hm.symm.trans hm')
      exact ⟨e, he, hj⟩

/-- An intact model passes its check if the models nested in it are there. -/
theorem Intact.checkExpressions (h : a.Intact k)
    (hnested : ∀ j, a.Nests k j → j < a.models.length) :
    ∃ es found, a.modelExpressions k = .ok es ∧ a.checkExpressions k es = .ok found := by
  obtain ⟨m, hm, hdeclared, hmentioned⟩ := h
  obtain ⟨es, hes⟩ := (exists_modelExpressions_iff hm).mpr hdeclared
  refine ⟨es, _, hes, checkExpressions_eq_ok_iff.mpr ⟨rfl, fun e he => ?_⟩⟩
  have hheld := (mem_modelExpressions hm hes).mp he
  apply Expr.refsIn_iff.mpr
  constructor
  · intro s hs
    exact hmentioned e hheld s (Expr.mem_sourceRefs.mp hs)
  · intro j hj
    exact hnested j ⟨m, e, hm, hheld, Expr.mem_subqueries.mp hj⟩

/-! ### Checking all models -/

/-- If validation succeeds, the models it has met by the end are intact, and no subquery leads away
from them. On the way, subqueries of the models met so far may still be pending. -/
theorem exists_closed_of_validateFrom (h : a.validateFrom pending seen = .ok ())
    (hseen : ∀ k ∈ seen, a.Intact k ∧ ∀ j, a.Nests k j → j ∈ pending ∨ j ∈ seen) :
    ∃ met, pending ⊆ met ∧ seen ⊆ met ∧ ∀ k ∈ met, a.Intact k ∧ ∀ j, a.Nests k j → j ∈ met := by
  fun_induction Arena.validateFrom a pending seen with
  | case1 seen =>
    refine ⟨seen, List.nil_subset seen, List.Subset.refl seen, fun k hk => ?_⟩
    simpa using hseen k hk
  | case2 seen id rest hid ih =>
    obtain ⟨met, hrest, hmet, hclosed⟩ := ih h fun k hk => by
      obtain ⟨hintact, hnested⟩ := hseen k hk
      refine ⟨hintact, fun j hj => ?_⟩
      rcases hnested j hj with hj | hj
      · rcases List.mem_cons.mp hj with rfl | hj
        · exact .inr hid
        · exact .inl hj
      · exact .inr hj
    exact ⟨met, List.cons_subset.mpr ⟨hmet hid, hrest⟩, hmet, hclosed⟩
  | case3 => cases h
  | case4 => cases h
  | case5 seen id rest hid es hes found hfound ih =>
    obtain ⟨hintact, hmem⟩ := intact_of_checkExpressions hes hfound
    obtain ⟨met, hpending, hmet, hclosed⟩ := ih h fun k hk => by
      rcases List.mem_cons.mp hk with rfl | hk
      · exact ⟨hintact, fun j hj => .inl (by simp [(hmem j).mpr hj])⟩
      · obtain ⟨hintact, hnested⟩ := hseen k hk
        refine ⟨hintact, fun j hj => ?_⟩
        rcases hnested j hj with hj | hj
        · rcases List.mem_cons.mp hj with rfl | hj
          · exact .inr List.mem_cons_self
          · exact .inl (List.mem_append_right _ hj)
        · exact .inr (List.mem_cons_of_mem _ hj)
    obtain ⟨hid, hmet⟩ := List.cons_subset.mp hmet
    exact ⟨met, List.cons_subset.mpr ⟨hid, (List.append_subset.mp hpending).2⟩, hmet, hclosed⟩

/-- Validation succeeds if all models that the pending ones lead to are intact. -/
theorem validateFrom_of_intact
    (h : ∀ p ∈ pending, ∀ k, Relation.ReflTransGen a.Nests p k → a.Intact k) :
    a.validateFrom pending seen = .ok () := by
  have checks {p : ModelId} (hp : ∀ k, Relation.ReflTransGen a.Nests p k → a.Intact k) :
      ∃ es found, a.modelExpressions p = .ok es ∧ a.checkExpressions p es = .ok found :=
    (hp p .refl).checkExpressions fun j hj => (hp j (.single hj)).lt
  fun_induction Arena.validateFrom a pending seen with
  | case1 => rfl
  | case2 seen id rest hid ih => exact ih (List.forall_mem_cons.mp h).2
  | case3 seen id rest hid error herr =>
    obtain ⟨es, found, hes, -⟩ := checks (h id List.mem_cons_self)
    cases herr.symm.trans hes
  | case4 seen id rest hid es hes error herr =>
    obtain ⟨es', found, hes', hfound⟩ := checks (h id List.mem_cons_self)
    obtain rfl := Except.ok.inj (hes.symm.trans hes')
    cases herr.symm.trans hfound
  | case5 seen id rest hid es hes found hfound ih =>
    obtain ⟨hfirst, hrest⟩ := List.forall_mem_cons.mp h
    apply ih
    intro p hp k hk
    rcases List.mem_append.mp hp with hp | hp
    · have hnests := ((intact_of_checkExpressions hes hfound).2 p).mp (List.mem_reverse.mp hp)
      exact hfirst k (hk.head hnests)
    · exact hrest p hp k hk

/-- Validation succeeds just if every model that the root leads to is intact. -/
theorem validate_eq_ok_iff (a : Arena) (root : ModelId) :
    a.validate root = .ok () ↔ ∀ k, Relation.ReflTransGen a.Nests root k → a.Intact k := by
  constructor
  · intro h k hk
    obtain ⟨met, hpending, -, hclosed⟩ := exists_closed_of_validateFrom h (by simp)
    have hmem : k ∈ met := by
      induction hk with
      | refl => exact hpending List.mem_cons_self
      | tail _ hnests ih => exact (hclosed _ ih).2 _ hnests
    exact (hclosed k hmem).1
  · intro h
    apply validateFrom_of_intact
    intro p hp k hk
    obtain rfl := List.mem_singleton.mp hp
    exact h k hk

end QueryTree.Arena
