import QueryTree.Proofs.SideBySide

/-! Every operator keeps two constructions side by side, hence chains and whole queries do. -/

namespace QueryTree

namespace Construction

variable {r r' : Registry} {passes : List Pass} {A : Accord r r' passes}
  {loose : Bool} {base : Base}
  {m m' : QueryModel} {c c' : Construction} {process process' : Expr → BuildM Expr}
  {method : Method} {e : Expr} {lambda : Lambda}

/-! ### Positions -/

theorem getElem?_append_cons {α : Type} {xs ys zs : List α} {x y : α} {k : Nat}
    (hlength : ys.length = xs.length) (hk : k ≠ xs.length) (h : ys[k]? = xs[k]?) :
    (ys ++ y :: zs)[k]? = (xs ++ x :: zs)[k]? := by
  by_cases hlt : k < xs.length
  · rwa [List.getElem?_append_left (hlength ▸ hlt), List.getElem?_append_left hlt]
  · have hle : xs.length ≤ k := Nat.le_of_not_lt hlt
    obtain ⟨i, hi⟩ : ∃ i, k - xs.length = i + 1 := ⟨k - xs.length - 1, by omega⟩
    rw [List.getElem?_append_right (hlength ▸ hle), List.getElem?_append_right hle, hlength, hi,
      List.getElem?_cons_succ, List.getElem?_cons_succ]

/-- The models become subqueries, and both sides go on over their items. -/
theorem Advances.above {d d' : Construction} {s : SourceId} {src : QuerySource}
    (h : Advances A loose base m m' c c')
    (hf : Follows { c with arena := (c.arena.addModel m).2 }
      { c' with arena := (c'.arena.addModel m').2 } d d')
    (hs : d.arena.source? s = some src) (ho : src.origin = .subQuery c.arena.models.length) :
    Advances A loose base (.ofSource s) (.ofSource s) d d' := by
  obtain ⟨more, hd, hd'⟩ := hf.models
  obtain ⟨added, added', hc, hc', hlike⟩ := h.models
  have hgrown : c.arena.Extends d.arena := (c.arena.extends_addModel m).trans hf.grown
  have hm : d.arena.model? c.arena.models.length = some m := by
    apply hf.grown.model?
    simp [Arena.addModel, Arena.model?]
  have hrest : ∀ k, k ≠ c.arena.models.length → c'.arena.model? k = c.arena.model? k →
      d'.arena.model? k = d.arena.model? k := by
    intro k hne heq
    simp only [Arena.model?, Arena.addModel] at heq hd hd' ⊢
    rw [hd, hd', List.append_assoc, List.append_assoc]
    exact getElem?_append_cons h.level.length hne heq
  refine ⟨hf.level, .refl _, A.source s, h.grown.trans hgrown,
    ⟨added ++ m :: more, added' ++ m' :: more, ?_, ?_, ?_⟩, ?_,
      (h.rests.extend hgrown).above hs ho hm⟩
  · simp [hd, Arena.addModel, hc]
  · simp [hd', Arena.addModel, hc']
  · exact List.rel_append hlike (.cons h.like (List.forall₂_same.mpr fun m _ => .refl m))
  · intro k hk hne
    by_cases hlast : k = c.arena.models.length
    · exact .direct hs (hlast ▸ ho)
    · have hold := h.spine k hk fun heq => hne (hrest k hlast heq)
      exact (Arena.Underlies.direct hs ho).trans hm (hold.extend hgrown)

theorem wrap_beside (h : Advances A loose base m m' c c') :
    Beside (wrap m) (wrap m') c c' (Advances A loose base) := by
  have hgo : ∀ itemType, Beside (do
      let inner ← addModel m
      let source ← addGenerated .mainFrom (.subQuery inner) itemType
      pure (QueryModel.ofSource source)) (do
      let inner ← addModel m'
      let source ← addGenerated .mainFrom (.subQuery inner) itemType
      pure (QueryModel.ofSource source)) c c' (Advances A loose base) := by
    intro itemType
    let d : Construction := { c with arena := (c.arena.addModel m).2 }
    let d' : Construction := { c' with arena := (c'.arena.addModel m').2 }
    have hlevel : Level d d' :=
      ⟨h.level.sources, h.level.generated, by simp [d, d', Arena.addModel, h.level.length]⟩
    have hadd : Beside (addModel m) (addModel m') c c' fun id id' e e' =>
        id = c.arena.models.length ∧ id' = c.arena.models.length ∧ e = d ∧ e' = d' :=
      ⟨rfl, h.level.length, rfl, rfl⟩
    apply hadd.bind
    rintro _ _ _ _ ⟨rfl, rfl, rfl, rfl⟩
    apply (addGenerated_beside hlevel .mainFrom (.subQuery c.arena.models.length) itemType).bind
    rintro source _ e e' ⟨rfl, hf, src, hs, ho⟩
    exact beside_pure (h.above hf hs ho)
  unfold wrap
  rw [h.like.groupSource?, h.like.select]
  split
  · exact hgo none
  · apply (itemType?_beside h.level m.select).bind
    rintro itemType _ _ _ ⟨rfl, rfl, rfl⟩
    exact hgo itemType

theorem clausePosition_beside (h : Advances A loose base m m' c c') :
    Beside (clausePosition m) (clausePosition m') c c' (Advances A loose base) := by
  unfold clausePosition
  rw [h.like.lastOperator?]
  split
  · exact wrap_beside h
  · exact beside_pure h

theorem itemPosition_beside (h : Advances A loose base m m' c c') :
    Beside (itemPosition m) (itemPosition m') c c' (Advances A loose base) := by
  unfold itemPosition
  rw [h.like.groupSource?]
  split
  · exact wrap_beside h
  · exact beside_pure h

/-! ### Arguments

Arguments are read in both constructions alike, and reading them changes nothing. -/

section

variable {α : Type} {args : List Expr} {Good : α → α → Construction → Construction → Prop}

theorem oneArg_beside {f g : Expr → BuildM α}
    (h : ∀ a, args = [a] → Beside (f a) (g a) c c' Good) :
    Beside (oneArg method args >>= f) (oneArg method args >>= g) c c' Good := by
  unfold oneArg
  split
  next a => exact h a rfl
  next => exact beside_fail

theorem optionalArg_beside {f g : Option Expr → BuildM α}
    (h : ∀ o : Option Expr, args = o.toList → Beside (f o) (g o) c c' Good) :
    Beside (optionalArg method args >>= f) (optionalArg method args >>= g) c c' Good := by
  unfold optionalArg
  split
  next => exact h none rfl
  next a => exact h (some a) rfl
  next => exact beside_fail

theorem noArgs_beside {f g : Unit → BuildM α} (h : Beside (f ()) (g ()) c c' Good) :
    Beside (noArgs method args >>= f) (noArgs method args >>= g) c c' Good := by
  unfold noArgs
  split
  · exact h
  · exact beside_fail

theorem targetType_beside {f g : String → BuildM α}
    (h : ∀ type, Beside (f type) (g type) c c' Good) :
    Beside (targetType method >>= f) (targetType method >>= g) c c' Good := by
  unfold targetType
  split
  next type _ _ => exact h type
  next => exact beside_fail

theorem navigation_beside {f g : List String → BuildM α}
    (h : ∀ path, Beside (f path) (g path) c c' Good) :
    Beside (navigation method lambda >>= f) (navigation method lambda >>= g) c c' Good := by
  unfold navigation
  split
  next path _ => exact h path
  next => exact beside_fail

theorem lambdaArg_beside {arity : Nat} {f g : Lambda → BuildM α} (he : A.fit e)
    (h : ∀ l : Lambda, A.fit l.body → Beside (f l) (g l) c c' Good) :
    Beside (lambdaArg method arity e >>= f) (lambdaArg method arity e >>= g) c c' Good := by
  unfold lambdaArg
  split
  next ps body heq =>
    split
    next => exact h ⟨ps, body⟩ (A.lambda he heq)
    next => exact beside_fail
  next => exact beside_fail

theorem optionalLambda_beside {arity : Nat} {o : Option Expr} {f g : Option Lambda → BuildM α}
    (ho : ∀ e ∈ o, A.fit e)
    (h : ∀ l : Option Lambda, (∀ lambda ∈ l, A.fit lambda.body) → Beside (f l) (g l) c c' Good) :
    Beside (optionalLambda method arity o >>= f)
      (optionalLambda method arity o >>= g) c c' Good := by
  cases o with
  | none => exact h none nofun
  | some e =>
    simp only [optionalLambda, bind_assoc, pure_bind]
    apply lambdaArg_beside (ho e rfl)
    intro l hl
    apply h (some l)
    rintro lambda hlambda
    exact Option.some.inj hlambda ▸ hl

end

/-! ### Lambdas -/

/-- Both sides make one expression of another, and it stays one that the registries read alike. -/
def Tracks (A : Accord r r' passes) (process process' : Expr → BuildM Expr) : Prop :=
  ∀ e c c', A.fit e → Level c c' → Beside (process e) (process' e) c c' fun e₁ e₂ d d' =>
    e₁ = e₂ ∧ A.fit e₁ ∧ Follows c c' d d'

theorem process_advances (hp : Tracks A process process') (he : A.fit e)
    (h : Advances A loose base m m' c c') :
    Beside (process e) (process' e) c c' fun e₁ e₂ d d' =>
      e₁ = e₂ ∧ A.fit e₁ ∧ Advances A loose base m m' d d' := by
  apply (hp e c c' he h.level).mono
  rintro e₁ e₂ d d' ⟨rfl, hfit, hf⟩
  exact ⟨rfl, hfit, h.follow hf⟩

theorem bind_advances (hp : Tracks A process process') (hl : A.fit lambda.body) {values : List Expr}
    (hv : ∀ v ∈ values, A.fit v) (h : Advances A loose base m m' c c') :
    Beside (bind process lambda values) (bind process' lambda values) c c' fun e₁ e₂ d d' =>
      e₁ = e₂ ∧ A.fit e₁ ∧ Advances A loose base m m' d d' :=
  process_advances hp (A.bind hl hv) h

theorem resolve_advances (hp : Tracks A process process') (hl : A.fit lambda.body)
    (h : Advances A loose base m m' c c') :
    Beside (resolve process m lambda) (resolve process' m' lambda) c c' fun e₁ e₂ d d' =>
      e₁ = e₂ ∧ A.fit e₁ ∧ Advances A loose base m m' d d' := by
  apply (adoptParam_beside h.level h.like.select lambda).bind
  intro _ _ d d' hf
  rw [h.like.select]
  exact bind_advances hp hl (by simpa using h.items) (h.follow hf)

/-! ### Operators -/

theorem filter_beside (hp : Tracks A process process') (he : A.fit e)
    (h : Advances A loose base m m' c c') :
    Beside (filter process m method e) (filter process' m' method e) c c'
      (Advances A loose base) := by
  apply lambdaArg_beside he
  intro lambda hl
  apply (clausePosition_beside h).bind
  intro m₁ m₁' c₁ c₁' h₁
  apply (resolve_advances hp hl h₁).bind
  rintro predicate _ c₂ c₂' ⟨rfl, -, h₂⟩
  exact beside_pure (h₂.addClause _)

theorem filterIf_beside (hp : Tracks A process process') {o : Option Expr} (ho : ∀ e ∈ o, A.fit e)
    (h : Advances A loose base m m' c c') :
    Beside (filterIf process m method o) (filterIf process' m' method o) c c'
      (Advances A loose base) := by
  cases o with
  | none => exact beside_pure h
  | some e => exact filter_beside hp (ho e rfl) h

theorem select_beside (hp : Tracks A process process') (he : A.fit e)
    (h : Advances A loose base m m' c c') :
    Beside (select process m method e) (select process' m' method e) c c'
      (Advances A loose base) := by
  apply lambdaArg_beside he
  intro lambda hl
  apply (clausePosition_beside h).bind
  intro m₁ m₁' c₁ c₁' h₁
  apply (resolve_advances hp hl h₁).bind
  rintro selected _ c₂ c₂' ⟨rfl, hfit, h₂⟩
  exact beside_pure (h₂.setSelect hfit)

theorem selectIf_beside (hp : Tracks A process process') {o : Option Expr} (ho : ∀ e ∈ o, A.fit e)
    (h : Advances A loose base m m' c c') :
    Beside (selectIf process m method o) (selectIf process' m' method o) c c'
      (Advances A loose base) := by
  cases o with
  | none => exact beside_pure h
  | some e => exact select_beside hp (ho e rfl) h

theorem selectMany_beside (hp : Tracks A process process') (he : A.fit e) {o : Option Expr}
    (ho : ∀ e ∈ o, A.fit e) (h : Advances A loose base m m' c c') :
    Beside (selectMany process m method e o) (selectMany process' m' method e o) c c'
      (Advances A loose base) := by
  apply lambdaArg_beside he
  intro collection hcollection
  apply optionalLambda_beside ho
  intro result hresult
  apply (clausePosition_beside h).bind
  intro m₁ m₁' c₁ c₁' h₁
  apply (resolve_advances hp hcollection h₁).bind
  rintro origin _ c₂ c₂' ⟨rfl, -, h₂⟩
  cases result with
  | none =>
    apply (addGenerated_beside h₂.level .additionalFrom origin none).bind
    rintro source _ c₃ c₃' ⟨rfl, hf, -⟩
    exact beside_pure (((h₂.follow hf).addClause _).setSelect (A.source source))
  | some result =>
    apply (addNamed_beside h₂.level _ .additionalFrom origin).bind
    rintro source _ c₃ c₃' ⟨rfl, hf⟩
    apply (adoptParam_beside hf.level h₂.like.select result).bind
    intro _ _ c₄ c₄' hf'
    have h₄ := (h₂.follow hf).follow hf'
    rw [h₂.like.select]
    have hvalues : ∀ v ∈ [m₁.select, .sourceRef source], A.fit v := by
      simpa using ⟨h₂.items, A.source source⟩
    apply (bind_advances hp (hresult result rfl) hvalues h₄).bind
    rintro selected _ c₅ c₅' ⟨rfl, hfit, h₅⟩
    exact beside_pure ((h₅.addClause _).setSelect hfit)

theorem selectManyArgs_beside (hp : Tracks A process process') {args : List Expr}
    (ha : ∀ a ∈ args, A.fit a) (h : Advances A loose base m m' c c') :
    Beside (selectManyArgs process m method args) (selectManyArgs process' m' method args) c c'
      (Advances A loose base) := by
  unfold selectManyArgs
  split
  · exact selectMany_beside hp (ha _ (by simp)) (by simp) h
  · exact selectMany_beside hp (ha _ (by simp)) (by simpa using ha _ (by simp)) h
  · exact beside_fail

theorem join_beside (hp : Tracks A process process') (grouped : Bool) {args : List Expr}
    (ha : ∀ a ∈ args, A.fit a) (h : Advances A loose base m m' c c') :
    Beside (join process grouped m method args) (join process' grouped m' method args) c c'
      (Advances A loose base) := by
  unfold join
  split
  next inner outerKey innerKey result =>
    simp only [List.forall_mem_cons] at ha
    obtain ⟨hinner, houterKey, hinnerKey, hresult, -⟩ := ha
    apply lambdaArg_beside houterKey
    intro outerKey houterKey
    apply lambdaArg_beside hinnerKey
    intro innerKey hinnerKey
    apply lambdaArg_beside hresult
    intro result hresult
    apply (clausePosition_beside h).bind
    intro m₁ m₁' c₁ c₁' h₁
    apply (process_advances hp (A.strip hinner) h₁).bind
    rintro origin _ c₂ c₂' ⟨rfl, -, h₂⟩
    apply (addNamed_beside h₂.level _ _ origin).bind
    rintro source _ c₃ c₃' ⟨rfl, hf⟩
    apply (resolve_advances hp houterKey (h₂.follow hf)).bind
    rintro outer _ c₄ c₄' ⟨rfl, -, h₄⟩
    apply (bind_advances hp hinnerKey (by simpa using A.source source) h₄).bind
    rintro inner _ c₅ c₅' ⟨rfl, -, h₅⟩
    have hvalues : ∀ v ∈ [m₁.select, .sourceRef source], A.fit v := by
      simpa using ⟨h₅.items, A.source source⟩
    rw [h₅.like.select]
    apply (bind_advances hp hresult hvalues h₅).bind
    rintro selected _ c₆ c₆' ⟨rfl, hfit, h₆⟩
    exact beside_pure ((h₆.addClause _).setSelect hfit)
  next => exact beside_fail

theorem orderBy_beside (hp : Tracks A process process') (descending : Bool) (he : A.fit e)
    (h : Advances A loose base m m' c c') :
    Beside (orderBy process descending m method e) (orderBy process' descending m' method e) c c'
      (Advances A loose base) := by
  apply lambdaArg_beside he
  intro lambda hl
  apply (clausePosition_beside h).bind
  intro m₁ m₁' c₁ c₁' h₁
  apply (resolve_advances hp hl h₁).bind
  rintro key _ c₂ c₂' ⟨rfl, -, h₂⟩
  exact beside_pure (h₂.addClause _)

theorem thenBy_beside (hp : Tracks A process process') (descending : Bool) (he : A.fit e)
    (h : Advances A loose base m m' c c') :
    Beside (thenBy process descending m method e) (thenBy process' descending m' method e) c c'
      (Advances A loose base) := by
  apply lambdaArg_beside he
  intro lambda hl
  rw [h.like.endsInOrdering]
  split
  · apply (resolve_advances hp hl h).bind
    rintro key _ c₁ c₁' ⟨rfl, -, h₁⟩
    apply beside_pure
    refine h₁.change ?_ h₁.items (.extendOrdering ⟨key, descending⟩ m)
    exact ⟨h₁.like.mainFrom, by rw [h₁.like.clauses], h₁.like.select, h₁.like.operators⟩
  · exact beside_fail

theorem groupBy_beside (hp : Tracks A process process') (he : A.fit e) {o : Option Expr}
    (ho : ∀ e ∈ o, A.fit e) (h : Advances A loose base m m' c c') :
    Beside (groupBy process m method e o) (groupBy process' m' method e o) c c'
      (Advances A loose base) := by
  apply lambdaArg_beside he
  intro key hkey
  apply optionalLambda_beside ho
  intro element helement
  apply (itemPosition_beside h).bind
  intro m₁ m₁' c₁ c₁' h₁
  apply (resolve_advances hp hkey h₁).bind
  rintro key _ c₂ c₂' ⟨rfl, -, h₂⟩
  have hgroups : ∀ item d d', Advances A loose base m₁ m₁' d d' → Beside (do
      let source ← addGenerated .groupResult item none
      pure (m₁.addOperator (.groupBy key item source))) (do
      let source ← addGenerated .groupResult item none
      pure (m₁'.addOperator (.groupBy key item source))) d d' (Advances A loose base) := by
    intro item d d' h
    apply (addGenerated_beside h.level .groupResult item none).bind
    rintro source _ e e' ⟨rfl, hf, -⟩
    exact beside_pure ((h.follow hf).addOperator _)
  cases element with
  | none =>
    rw [h₂.like.select]
    exact hgroups m₁.select _ _ h₂
  | some element =>
    apply (resolve_advances hp (helement element rfl) h₂).bind
    rintro item _ c₃ c₃' ⟨rfl, -, h₃⟩
    exact hgroups item _ _ h₃

theorem groupByArgs_beside (hp : Tracks A process process') {args : List Expr}
    (ha : ∀ a ∈ args, A.fit a) (h : Advances A loose base m m' c c') :
    Beside (groupByArgs process m method args) (groupByArgs process' m' method args) c c'
      (Advances A loose base) := by
  unfold groupByArgs
  split
  · exact groupBy_beside hp (ha _ (by simp)) (by simp) h
  · exact groupBy_beside hp (ha _ (by simp)) (by simpa using ha _ (by simp)) h
  · exact beside_fail

theorem includeLambda_beside (he : A.fit e) (h : Advances A loose base m m' c c') :
    Beside (includeLambda m method e) (includeLambda m' method e) c c' (Advances A loose base) := by
  apply lambdaArg_beside he
  intro lambda _
  apply navigation_beside
  intro path
  apply (adoptParam_beside h.level h.like.select lambda).bind
  intro _ _ d d' hf
  rw [h.like.includeSource?]
  exact beside_pure ((h.follow hf).addOperator _)

theorem includeString_beside (h : Advances A loose base m m' c c') :
    Beside (includeString m method e) (includeString m' method e) c c' (Advances A loose base) := by
  unfold includeString
  rw [h.like.includeSource?]
  split
  · split
    · exact beside_fail
    · exact beside_pure (h.addOperator _)
  · exact beside_fail

theorem thenInclude_beside (he : A.fit e) (h : Advances A loose base m m' c c') :
    Beside (thenInclude m method e) (thenInclude m' method e) c c' (Advances A loose base) := by
  apply lambdaArg_beside he
  intro lambda _
  apply navigation_beside
  intro path
  have hops : (extendInclude? path m'.operators.reverse).map (·.filter (·.counts loose)) =
      (extendInclude? path m.operators.reverse).map (·.filter (·.counts loose)) := by
    rw [← extendInclude?_filter, ← extendInclude?_filter, List.filter_reverse, List.filter_reverse,
      h.like.operators]
  cases hm : extendInclude? path m.operators.reverse with
  | none =>
    rw [hm] at hops
    rw [Option.map_eq_none_iff.mp hops]
    exact beside_fail
  | some ops =>
    rw [hm] at hops
    obtain ⟨ops', hm', hsame⟩ := Option.map_eq_some_iff.mp hops
    rw [hm']
    apply beside_pure
    refine h.change ?_ h.items ⟨rfl, fun _ hp => hp⟩
    refine ⟨h.like.mainFrom, h.like.clauses, h.like.select, ?_⟩
    rw [List.filter_reverse, List.filter_reverse]
    exact congrArg List.reverse hsame

theorem tagWith_beside (h : Advances A loose base m m' c c') :
    Beside (tagWith m method e) (tagWith m' method e) c c' (Advances A loose base) := by
  unfold tagWith
  split
  · exact beside_pure (h.addOperator _)
  · exact beside_fail

theorem customArgs_beside (hp : Tracks A process process') {args : List Expr}
    (ha : ∀ a ∈ args, A.fit a) (h : Advances A loose base m m' c c') :
    Beside (customArgs process m args) (customArgs process' m' args) c c' fun es es' d d' =>
      es = es' ∧ Advances A loose base m m' d d' := by
  induction args generalizing c c' with
  | nil => exact beside_pure ⟨rfl, h⟩
  | cons arg args ih =>
    rw [List.forall_mem_cons] at ha
    have hrest : ∀ (e : Expr) d d', Advances A loose base m m' d d' → Beside (do
        let es ← customArgs process m args
        pure (e :: es)) (do
        let es ← customArgs process' m' args
        pure (e :: es)) d d' fun es es' d d' => es = es' ∧ Advances A loose base m m' d d' := by
      intro e d d' h
      apply (ih ha.2 h).bind
      rintro es _ e e' ⟨rfl, h⟩
      exact beside_pure ⟨rfl, h⟩
    unfold customArgs
    split
    next p body heq =>
      apply (resolve_advances hp (A.lambda ha.1 heq) h).bind
      rintro e _ d d' ⟨rfl, -, hd⟩
      exact hrest e d d' hd
    next =>
      apply (process_advances hp (A.strip ha.1) h).bind
      rintro e _ d d' ⟨rfl, -, hd⟩
      exact hrest e d d' hd

theorem oneExpression_beside (hp : Tracks A process process') {args : List Expr}
    (ha : ∀ a ∈ args, A.fit a) (op : Expr → ResultOperator) (h : Advances A loose base m m' c c') :
    Beside (do
      let e ← process (← oneArg method args)
      pure (m.addOperator (op e))) (do
      let e ← process' (← oneArg method args)
      pure (m'.addOperator (op e))) c c' (Advances A loose base) := by
  apply oneArg_beside
  intro a hargs
  apply (process_advances hp (ha a (by simp [hargs])) h).bind
  rintro e _ d d' ⟨rfl, -, hd⟩
  exact beside_pure (hd.addOperator _)

theorem apply_beside (hp : Tracks A process process') (call : OperatorCall)
    (ha : ∀ a ∈ call.args, A.fit a) (h : Advances A loose base m m' c c') :
    Beside (apply process m call) (apply process' m' call) c c' (Advances A loose base) := by
  have hone : ∀ {a}, call.args = [a] → A.fit a := fun hargs => ha _ (by simp [hargs])
  have hoptional : ∀ {o : Option Expr}, call.args = o.toList → ∀ e ∈ o, A.fit e := by
    rintro o hargs e rfl
    exact ha e (by simp [hargs])
  unfold apply
  cases call.kind with
  | filter => exact oneArg_beside fun a hargs => filter_beside hp (hone hargs) h
  | select => exact oneArg_beside fun a hargs => select_beside hp (hone hargs) h
  | selectMany => exact selectManyArgs_beside hp ha h
  | join grouped => exact join_beside hp grouped ha h
  | orderBy descending =>
    exact oneArg_beside fun a hargs => orderBy_beside hp descending (hone hargs) h
  | thenBy descending =>
    exact oneArg_beside fun a hargs => thenBy_beside hp descending (hone hargs) h
  | groupBy => exact groupByArgs_beside hp ha h
  | take => exact oneExpression_beside hp ha .take h
  | skip => exact oneExpression_beside hp ha .skip h
  | contains => exact oneExpression_beside hp ha .contains h
  | combine combination => exact oneExpression_beside hp ha (.combine combination) h
  | element _ _ | count _ | any =>
    apply optionalArg_beside
    intro o hargs
    apply (filterIf_beside hp (hoptional hargs) h).bind
    intro m₁ m₁' d d' h₁
    exact beside_pure (h₁.addOperator _)
  | all =>
    apply oneArg_beside
    intro a hargs
    apply lambdaArg_beside (hone hargs)
    intro lambda hl
    apply (itemPosition_beside h).bind
    intro m₁ m₁' c₁ c₁' h₁
    apply (resolve_advances hp hl h₁).bind
    rintro predicate _ c₂ c₂' ⟨rfl, -, h₂⟩
    exact beside_pure (h₂.addOperator _)
  | aggregate a =>
    apply optionalArg_beside
    intro o hargs
    apply (selectIf_beside hp (hoptional hargs) h).bind
    intro m₁ m₁' d d' h₁
    exact beside_pure (h₁.addOperator _)
  | distinct | reverse | tracking _ | ignoreFilters =>
    exact noArgs_beside (beside_pure (h.addOperator _))
  | cast | ofType =>
    exact noArgs_beside (targetType_beside fun type => beside_pure (h.addOperator _))
  | defaultIfEmpty =>
    apply optionalArg_beside
    intro o hargs
    cases o with
    | none => exact beside_pure (h.addOperator _)
    | some arg =>
      apply (process_advances hp (hoptional hargs arg rfl) h).bind
      rintro e _ d d' ⟨rfl, -, hd⟩
      exact beside_pure (hd.addOperator _)
  | tag => exact oneArg_beside fun a _ => tagWith_beside h
  | includeLambda => exact oneArg_beside fun a hargs => includeLambda_beside (hone hargs) h
  | includeString => exact oneArg_beside fun a _ => includeString_beside h
  | thenInclude => exact oneArg_beside fun a hargs => thenInclude_beside (hone hargs) h
  | custom name =>
    apply (customArgs_beside hp ha h).bind
    rintro es _ d d' ⟨rfl, hd⟩
    exact beside_pure (hd.addOperator _)

theorem applyAll_append (process : Expr → BuildM Expr) (m : QueryModel)
    (earlier later : List OperatorCall) :
    applyAll process m (earlier ++ later) = (do
      let m ← applyAll process m earlier
      applyAll process m later) := by
  induction earlier generalizing m with
  | nil => simp [applyAll]
  | cons call earlier ih => simp [applyAll, ih]

theorem applyAll_beside (hp : Tracks A process process') (calls : List OperatorCall)
    (ha : ∀ call ∈ calls, ∀ a ∈ call.args, A.fit a) (h : Advances A loose base m m' c c') :
    Beside (applyAll process m calls) (applyAll process' m' calls) c c'
      (Advances A loose base) := by
  induction calls generalizing m m' c c' with
  | nil => exact beside_pure h
  | cons call calls ih =>
    rw [List.forall_mem_cons] at ha
    apply (apply_beside hp call ha.1 h).bind
    intro m₁ m₁' d d' h₁
    exact ih ha.2 h₁

/-! ### Chains -/

/-- Both sides make one model of a chain. -/
def TracksModels (A : Accord r r' passes) (build build' : Expr → BuildM QueryModel) : Prop :=
  ∀ e c c', A.fit e → Level c c' → Beside (build e) (build' e) c c' fun m m' d d' =>
    m = m' ∧ Follows c c' d d'

variable {build build' : Expr → BuildM QueryModel}

theorem addSubquery_beside (hb : TracksModels A build build') (he : A.fit e) (hlevel : Level c c') :
    Beside (addSubquery build e) (addSubquery build' e) c c' fun e₁ e₂ d d' =>
      e₁ = e₂ ∧ A.fit e₁ ∧ Follows c c' d d' := by
  apply (hb e c c' he hlevel).bind
  rintro m _ d d' ⟨rfl, hf⟩
  have hadd : Beside (addModel m) (addModel m) d d' fun id id' e e' =>
      id = id' ∧ Follows d d' e e' := by
    refine ⟨hf.level.length.symm, ⟨hf.level.sources, hf.level.generated, ?_⟩,
      d.arena.extends_addModel m, [m], rfl, rfl⟩
    simp [hf.level.length]
  apply hadd.bind
  rintro id _ e e' ⟨rfl, hf'⟩
  exact beside_pure ⟨rfl, A.subquery id, hf.trans hf'⟩

theorem liftChainsAll_beside {es : List Expr}
    (h : ∀ e ∈ es, ∀ c c', Level c c' → Beside (liftChains r build e) (liftChains r' build' e) c c'
      fun e₁ e₂ d d' => e₁ = e₂ ∧ A.fit e₁ ∧ Follows c c' d d') (hlevel : Level c c') :
    Beside (liftChainsAll r build es) (liftChainsAll r' build' es) c c' fun es₁ es₂ d d' =>
      es₁ = es₂ ∧ es₁.length = es.length ∧ (∀ e ∈ es₁, A.fit e) ∧ Follows c c' d d' := by
  induction es generalizing c c' with
  | nil => exact beside_pure ⟨rfl, rfl, by simp, .refl hlevel⟩
  | cons e es ih =>
    rw [List.forall_mem_cons] at h
    apply (h.1 c c' hlevel).bind
    rintro e₁ _ d d' ⟨rfl, he₁, hf⟩
    apply (ih h.2 hf.level).bind
    rintro es₁ _ f f' ⟨rfl, hlength, hes₁, hf'⟩
    exact beside_pure
      ⟨rfl, by simp [hlength], List.forall_mem_cons.mpr ⟨he₁, hes₁⟩, hf.trans hf'⟩

theorem liftChains_beside (hb : TracksModels A build build') (he : A.fit e) (hlevel : Level c c') :
    Beside (liftChains r build e) (liftChains r' build' e) c c' fun e₁ e₂ d d' =>
      e₁ = e₂ ∧ A.fit e₁ ∧ Follows c c' d d' := by
  induction e using Expr.byChildren generalizing c c' with
  | step e ih =>
    have hkind : r'.kind? e.strip = r.kind? e.strip := A.kind? (A.strip he)
    cases hchain : r.kind? e.strip with
    | some kind =>
      rw [liftChains_of_kind? _ _ hchain, liftChains_of_kind? _ _ (hkind.trans hchain)]
      exact addSubquery_beside hb he hlevel
    | none =>
      rw [liftChains_eq _ _ hchain, liftChains_eq _ _ (hkind.trans hchain)]
      have hchild : ∀ child ∈ e.children, ∀ c c', Level c c' → Beside (liftChains r build child)
          (liftChains r' build' child) c c'
          fun e₁ e₂ d d' => e₁ = e₂ ∧ A.fit e₁ ∧ Follows c c' d d' :=
        fun child hchild _ _ hlevel => ih child hchild (A.child he child hchild) hlevel
      apply (liftChainsAll_beside hchild hlevel).bind
      rintro es _ d d' ⟨rfl, hlength, hes, hf⟩
      exact beside_pure ⟨rfl, A.rebuild he hlength hes, hf⟩

theorem start_beside (hp : Tracks A process process') (he : A.fit e) (hlevel : Level c c') :
    Beside (start process e) (start process' e) c c' fun m m' d d' =>
      m = m' ∧ A.fit m.select ∧ Follows c c' d d' := by
  have hroot : ∀ origin itemType d d', Follows c c' d d' → Beside (do
      let source ← addGenerated .mainFrom origin itemType
      pure (QueryModel.ofSource source)) (do
      let source ← addGenerated .mainFrom origin itemType
      pure (QueryModel.ofSource source)) d d' fun m m' d d' =>
        m = m' ∧ A.fit m.select ∧ Follows c c' d d' := by
    intro origin itemType d d' hf
    apply (addGenerated_beside hf.level .mainFrom origin itemType).bind
    rintro source _ f f' ⟨rfl, hf', -⟩
    exact beside_pure ⟨rfl, A.source source, hf.trans hf'⟩
  have hover : Beside (do
      let origin ← process e
      let source ← addGenerated .mainFrom origin none
      pure (QueryModel.ofSource source)) (do
      let origin ← process' e
      let source ← addGenerated .mainFrom origin none
      pure (QueryModel.ofSource source)) c c' fun m m' d d' =>
        m = m' ∧ A.fit m.select ∧ Follows c c' d d' := by
    apply (hp e c c' he hlevel).bind
    rintro origin _ d d' ⟨rfl, -, hf⟩
    exact hroot origin none d d' hf
  unfold start
  split
  next entity => exact hroot _ (some entity) c c' (.refl hlevel)
  next =>
    split
    · exact beside_throw
    · exact hover
  next => exact hover

end Construction

namespace Builder

open Construction

variable {r r' : Registry} {passes : List Pass} {A : Accord r r' passes}
  {build build' : Expr → BuildM QueryModel}

theorem process_tracks (hb : TracksModels A build build') :
    Tracks A (process ⟨r, passes⟩ build) (process ⟨r', passes⟩ build') := by
  intro e c c' he hlevel
  apply (liftChains_beside hb he hlevel).bind
  rintro e₁ _ d d' ⟨rfl, he₁, hf⟩
  have hpasses := A.passes he₁
  cases hrun : Pass.runAll passes e₁ with
  | error error => exact beside_throw
  | ok e₂ =>
    rw [hrun] at hpasses
    exact beside_pure ⟨rfl, hpasses, hf⟩

theorem assemble_tracks (hb : TracksModels A build build') :
    TracksModels A (assemble ⟨r, passes⟩ build) (assemble ⟨r', passes⟩ build') := by
  intro e c c' he hlevel
  obtain ⟨hchain, hroot, hcalls⟩ := A.chain he
  have hp := process_tracks hb
  simp only [assemble, hchain]
  apply (start_beside hp hroot hlevel).bind
  rintro m _ d d' ⟨rfl, hitems, hf⟩
  have hstart : Advances A false ⟨d, d', m⟩ m m d d' := .start hf.level (.refl m) hitems
  apply (applyAll_beside hp _ hcalls hstart).mono
  intro n n' f f' hn
  obtain ⟨rfl, hf'⟩ := hn.strict
  exact ⟨rfl, hf.trans hf'⟩

theorem buildChain_tracks (A : Accord r r' passes) (limit : Nat) :
    TracksModels A (buildChain ⟨r, passes⟩ limit) (buildChain ⟨r', passes⟩ limit) := by
  induction limit with
  | zero => exact assemble_tracks fun _ _ _ _ _ => beside_throw
  | succ limit ih => exact assemble_tracks ih

/-- The expression processor of a chain that nests at most `limit` deep. -/
def processor (b : Builder) (limit : Nat) : Expr → BuildM Expr :=
  b.process (match limit with
    | 0 => fun _ => throw .limitExceeded
    | limit + 1 => b.buildChain limit)

theorem buildChain_eq (b : Builder) (limit : Nat) (e : Expr) :
    b.buildChain limit e = (do
      let m ← start (b.processor limit) (b.registry.chain e).1
      applyAll (b.processor limit) m (b.registry.chain e).2) := by
  cases limit <;> rfl

/-- The last operator of a chain is applied to the model of what it is called on. -/
theorem buildChain_operator (b : Builder) (limit : Nat) {method : Method} {kind : OperatorKind}
    (hkind : b.registry.lookup method = some kind) (source : Expr) (args : List Expr) :
    b.buildChain limit (.staticCall method (source :: args)) = (do
      let m ← b.buildChain limit source
      apply (b.processor limit) m ⟨method, kind, args⟩) := by
  simp [buildChain_eq, Registry.chain, hkind, applyAll_append, applyAll]

theorem build_ok_iff {b : Builder} {limit : Nat} {e : Expr} {built : BuiltQuery} :
    b.build limit e = .ok built ↔
      ∃ m c, b.buildChain limit e ⟨.empty, []⟩ = .ok (m, c) ∧
        built = ⟨(c.arena.addModel m).2, c.arena.models.length⟩ := by
  constructor
  · intro h
    obtain ⟨⟨m, c⟩, hchain, hbuilt⟩ := bind_eq_ok.mp h
    exact ⟨m, c, hchain, (Except.ok.inj hbuilt).symm⟩
  · rintro ⟨m, c, hchain, rfl⟩
    exact bind_eq_ok.mpr ⟨(m, c), hchain, rfl⟩

theorem processor_tracks (A : Accord r r' passes) (limit : Nat) :
    Tracks A (processor ⟨r, passes⟩ limit) (processor ⟨r', passes⟩ limit) := by
  cases limit with
  | zero => exact process_tracks fun _ _ _ _ _ => beside_throw
  | succ limit => exact process_tracks (buildChain_tracks A limit)

end Builder

end QueryTree
