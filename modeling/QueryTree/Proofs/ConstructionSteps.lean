import QueryTree.Proofs.ConstructionRule

/-! Every operator keeps a rule: whatever it adds to a model comes from its arguments, after the
passes, or refers to a source or a subquery. -/

namespace QueryTree

open BuildRule

/-! ### Changes of a model -/

namespace BuildRule.Settled

variable {b : Builder} {R : BuildRule b} {reused : Bool} {st : Stage} {scope : List String}
  {m : QueryModel}

theorem ofSource {id : SourceId} (h : R.Sourced st scope id) :
    R.Settled reused st scope (.ofSource id) where
  select _ := R.source _ _ _
  expressions := by
    intro e he
    obtain rfl : e = .sourceRef id := by
      simpa [QueryModel.expressions, QueryModel.ofSource] using he
    exact R.source _ _ _
  sources := by
    intro s hs
    obtain rfl : s = id := by simpa [QueryModel.declaredSources, QueryModel.ofSource] using hs
    exact h

theorem addClause {c : Clause} (h : R.Settled reused st scope m)
    (hc : ∀ e ∈ c.expressions, R.done st.scopes (.part scope false) e)
    (hs : ∀ id ∈ c.source?, R.Sourced st scope id) : R.Settled reused st scope (m.addClause c) where
  select := h.select
  expressions := by
    intro e he
    simp only [QueryModel.expressions, QueryModel.addClause, List.flatMap_append,
      List.flatMap_singleton, List.mem_append] at he
    rcases he with (he | he) | he
    · exact h.expressions e (List.mem_append_left _ he)
    · exact hc e he
    · exact h.expressions e (List.mem_append_right _ he)
  sources := by
    intro s hin
    simp only [QueryModel.declaredSources, QueryModel.addClause, List.filterMap_append,
      List.mem_cons, List.mem_append] at hin
    have hold : ∀ s ∈ m.declaredSources, R.Sourced st scope s := h.sources
    simp only [QueryModel.declaredSources, List.mem_cons, List.mem_append] at hold
    rcases hin with hin | (hin | hin) | hin
    · exact hold s (.inl hin)
    · exact hold s (.inr (.inl hin))
    · obtain ⟨c', hc', hid⟩ := List.mem_filterMap.mp hin
      obtain rfl := List.mem_singleton.mp hc'
      exact hs s hid
    · exact hold s (.inr (.inr hin))

theorem addOperator {op : ResultOperator} (h : R.Settled reused st scope m)
    (hop : ∀ e ∈ op.expressions, R.done st.scopes (.part scope false) e)
    (hs : ∀ id ∈ op.source?, R.Sourced st scope id) :
    R.Settled reused st scope (m.addOperator op) where
  select := h.select
  expressions := by
    intro e he
    simp only [QueryModel.expressions, QueryModel.addOperator, List.flatMap_append,
      List.flatMap_singleton] at he
    rw [← List.cons_append, ← List.append_assoc, List.mem_append] at he
    exact he.elim (h.expressions e) (hop e)
  sources := by
    intro s hin
    simp only [QueryModel.declaredSources, QueryModel.addOperator, List.filterMap_append] at hin
    rw [← List.append_assoc, ← List.cons_append, List.mem_append] at hin
    rcases hin with hin | hin
    · exact h.sources s hin
    · obtain ⟨op', hop', hid⟩ := List.mem_filterMap.mp hin
      obtain rfl := List.mem_singleton.mp hop'
      exact hs s hid

theorem addBare {op : ResultOperator} (h : R.Settled reused st scope m) (hop : op.expressions = [])
    (hs : op.source? = none) : R.Settled reused st scope (m.addOperator op) :=
  h.addOperator (by simp [hop]) (by simp [hs])

theorem addOver {op : ResultOperator} {e : Expr} (h : R.Settled reused st scope m)
    (he : R.done st.scopes (.part scope false) e) (hop : op.expressions = [e])
    (hs : op.source? = none) : R.Settled reused st scope (m.addOperator op) :=
  h.addOperator (by simpa [hop] using he) (by simp [hs])

theorem setSelect {e : Expr} {selected : Bool} (h : R.Settled reused st scope m)
    (he : R.done st.scopes (.part scope selected) e) :
    R.Settled selected st scope { m with select := e } where
  select hs := hs ▸ he
  expressions := by
    intro e' hin
    simp only [QueryModel.expressions, List.mem_append, List.mem_cons] at hin
    rcases hin with hin | rfl | hin
    · exact h.expressions e' (List.mem_append_left _ hin)
    · cases selected with
      | true => exact R.loosen he
      | false => exact he
    · exact h.expressions e' (List.mem_append_right _ (List.mem_cons_of_mem _ hin))
  sources := h.sources

end BuildRule.Settled

namespace Construction

variable {b : Builder} {R : BuildRule b} {process : Expr → BuildM Expr} {st : Stage}
  {scope : List String} {selected reused : Bool} {m : QueryModel} {method : Method} {e : Expr}
  {lambda : Lambda} {args : List Expr}

/-! ### Positions -/

theorem wrap_leaves (hm : R.Settled reused st scope m) :
    R.Leaves (wrap m) st fun st' m' => R.Settled reused st' scope m' := by
  have hnew : ∀ (st' : Stage) itemType, st.Extends st' → R.Leaves (do
      let inner ← addModel m
      let source ← addGenerated .mainFrom (.subQuery inner) itemType
      pure (QueryModel.ofSource source)) st' fun st' m' => R.Settled reused st' scope m' := by
    intro st' itemType hst'
    apply (addModel_leaves (hm.grow hst')).bind
    intro inner st₁ _ hinner
    apply (addGenerated_leaves _ _ (R.subquery false hinner)).bind
    intro source st₂ _ hsource
    exact leaves_pure (.ofSource hsource)
  unfold wrap
  split
  · exact hnew st none (.refl st)
  · apply (itemType?_leaves _).bind
    intro itemType st' hst' _
    exact hnew st' itemType hst'

theorem clausePosition_leaves (hm : R.Settled reused st scope m) :
    R.Leaves (clausePosition m) st fun st' m' => R.Settled reused st' scope m' := by
  unfold clausePosition
  split
  · exact wrap_leaves hm
  · exact leaves_pure hm

theorem itemPosition_leaves (hm : R.Settled reused st scope m) :
    R.Leaves (itemPosition m) st fun st' m' => R.Settled reused st' scope m' := by
  unfold itemPosition
  split
  · exact wrap_leaves hm
  · exact leaves_pure hm

/-! ### Arguments -/

theorem oneArg_leaves : R.Leaves (oneArg method args) st fun st' a => st' = st ∧ args = [a] := by
  unfold oneArg
  split
  · exact leaves_pure ⟨rfl, rfl⟩
  · exact leaves_fail

theorem optionalArg_leaves :
    R.Leaves (optionalArg method args) st fun st' o => st' = st ∧ args = o.toList := by
  unfold optionalArg
  split
  · exact leaves_pure ⟨rfl, rfl⟩
  · exact leaves_pure ⟨rfl, rfl⟩
  · exact leaves_fail

theorem noArgs_leaves : R.Leaves (noArgs method args) st fun st' _ => st' = st := by
  unfold noArgs
  split
  · exact leaves_pure rfl
  · exact leaves_fail

theorem targetType_leaves : R.Leaves (targetType method) st fun st' _ => st' = st := by
  unfold targetType
  split
  · exact leaves_pure rfl
  · exact leaves_fail

theorem navigation_leaves : R.Leaves (navigation method lambda) st fun st' _ => st' = st := by
  unfold navigation
  split
  · exact leaves_pure rfl
  · exact leaves_fail

theorem lambdaArg_leaves {arity : Nat} (h : R.Applies st.scopes scope selected e) :
    R.Leaves (lambdaArg method arity e) st fun st' l => st' = st ∧ l.params.length = arity ∧
      R.raw st.scopes ⟨scope, l.params, [], selected⟩ l.body := by
  unfold lambdaArg
  split
  next ps body heq =>
    split
    next hlength => exact leaves_pure ⟨rfl, hlength, h ps body heq⟩
    next => exact leaves_fail
  next => exact leaves_fail

theorem optionalLambda_leaves {arity : Nat} {o : Option Expr}
    (h : ∀ e ∈ o, R.Applies st.scopes scope selected e) :
    R.Leaves (optionalLambda method arity o) st fun st' l => st' = st ∧ ∀ lambda ∈ l,
      lambda.params.length = arity ∧
        R.raw st.scopes ⟨scope, lambda.params, [], selected⟩ lambda.body := by
  unfold optionalLambda
  split
  · exact leaves_pure ⟨rfl, by simp⟩
  next arg =>
    apply (lambdaArg_leaves (h arg rfl)).bind
    rintro lambda _ - ⟨rfl, hlambda⟩
    exact leaves_pure ⟨rfl, by simpa using hlambda⟩

/-! ### Lambdas -/

theorem bind_leaves (hp : R.Processes process) {values : List Expr}
    (hl : R.raw st.scopes ⟨scope, lambda.params, [], selected⟩ lambda.body)
    (hv : ∀ v ∈ values, R.done st.scopes (.part scope true) v)
    (hlength : lambda.params.length = values.length) :
    R.Leaves (bind process lambda values) st fun st' e =>
      R.done st'.scopes (.part scope selected) e :=
  hp st scope selected _ (R.bind hl hlength hv)

theorem resolve_leaves (hp : R.Processes process) (hm : R.Settled true st scope m)
    (hlength : lambda.params.length = 1)
    (hl : R.raw st.scopes ⟨scope, lambda.params, [], selected⟩ lambda.body) :
    R.Leaves (resolve process m lambda) st fun st' e =>
      R.done st'.scopes (.part scope selected) e := by
  apply (adoptParam_leaves m lambda).bind
  intro _ st₁ hst₁ _
  have hitem : ∀ v ∈ [m.select], R.done st₁.scopes (.part scope true) v := by
    simpa using R.done_grow hst₁.scopes (hm.select rfl)
  exact bind_leaves hp (R.raw_grow hst₁.scopes hl) hitem hlength

/-! ### Operators -/

theorem filter_leaves (hp : R.Processes process) (hm : R.Settled true st scope m)
    (he : R.Applies st.scopes scope false e) :
    R.Leaves (filter process m method e) st fun st' m' => R.Settled true st' scope m' := by
  apply (lambdaArg_leaves he).bind
  rintro lambda _ - ⟨rfl, hlength, hl⟩
  apply (clausePosition_leaves hm).bind
  intro m₁ st₁ hst₁ hm₁
  apply (resolve_leaves hp hm₁ hlength (R.raw_grow hst₁.scopes hl)).bind
  intro predicate st₂ hst₂ hpredicate
  apply leaves_pure
  apply (hm₁.grow hst₂).addClause
  · simpa [Clause.expressions] using hpredicate
  · simp [Clause.source?]

theorem filterIf_leaves (hp : R.Processes process) {o : Option Expr}
    (hm : R.Settled (o.isSome || reused) st scope m)
    (ho : ∀ e ∈ o, R.Applies st.scopes scope false e) :
    R.Leaves (filterIf process m method o) st fun st' m' => R.Settled reused st' scope m' := by
  cases o with
  | none => exact leaves_pure hm
  | some e =>
    apply (filter_leaves hp hm (ho e rfl)).mono
    intro st' m' _ hm'
    exact hm'.loosen fun _ => rfl

theorem select_leaves (hp : R.Processes process) (hm : R.Settled true st scope m)
    (he : R.Applies st.scopes scope reused e) :
    R.Leaves (select process m method e) st fun st' m' => R.Settled reused st' scope m' := by
  apply (lambdaArg_leaves he).bind
  rintro lambda _ - ⟨rfl, hlength, hl⟩
  apply (clausePosition_leaves hm).bind
  intro m₁ st₁ hst₁ hm₁
  apply (resolve_leaves hp hm₁ hlength (R.raw_grow hst₁.scopes hl)).bind
  intro selected st₂ hst₂ hselected
  exact leaves_pure ((hm₁.grow hst₂).setSelect hselected)

theorem selectIf_leaves (hp : R.Processes process) {o : Option Expr}
    (hm : R.Settled (o.isSome || reused) st scope m)
    (ho : ∀ e ∈ o, R.Applies st.scopes scope reused e) :
    R.Leaves (selectIf process m method o) st fun st' m' => R.Settled reused st' scope m' := by
  cases o with
  | none => exact leaves_pure hm
  | some e => exact select_leaves hp hm (ho e rfl)

/-- A further source of a model; its clause holds no expressions. -/
theorem additionalFrom_settled {id : SourceId} (hm : R.Settled reused st scope m)
    (hs : R.Sourced st scope id) :
    R.Settled reused st scope (m.addClause (.additionalFrom id)) := by
  apply hm.addClause
  · simp [Clause.expressions]
  · simpa [Clause.source?] using hs

theorem selectMany_leaves (hp : R.Processes process) (hm : R.Settled true st scope m)
    (he : R.Applies st.scopes scope false e) {o : Option Expr}
    (ho : ∀ e ∈ o, R.Applies st.scopes scope reused e) :
    R.Leaves (selectMany process m method e o) st fun st' m' => R.Settled reused st' scope m' := by
  apply (lambdaArg_leaves he).bind
  rintro collection _ - ⟨rfl, hlength, hcollection⟩
  apply (optionalLambda_leaves ho).bind
  rintro result _ - ⟨rfl, hresult⟩
  apply (clausePosition_leaves hm).bind
  intro m₁ st₁ hst₁ hm₁
  apply (resolve_leaves hp hm₁ hlength (R.raw_grow hst₁.scopes hcollection)).bind
  intro origin st₂ hst₂ horigin
  have hm₂ := hm₁.grow hst₂
  cases result with
  | none =>
    apply (addGenerated_leaves _ _ horigin).bind
    intro source st₃ hst₃ hsource
    exact leaves_pure ((additionalFrom_settled (hm₂.grow hst₃) hsource).setSelect (R.source _ _ _))
  | some result =>
    obtain ⟨hlength₂, hbody⟩ := hresult result rfl
    apply (addNamed_leaves _ _ horigin).bind
    intro source st₃ hst₃ hsource
    apply (adoptParam_leaves m₁ result).bind
    intro _ st₄ hst₄ _
    have hm₄ := (hm₂.grow hst₃).grow hst₄
    have hbody₄ := R.raw_grow (((hst₁.trans hst₂).trans hst₃).trans hst₄).scopes hbody
    have hvalues :
        ∀ v ∈ [m₁.select, .sourceRef source], R.done st₄.scopes (.part scope true) v := by
      simpa using ⟨hm₄.select rfl, R.source _ _ _⟩
    apply (bind_leaves hp hbody₄ hvalues hlength₂).bind
    intro selected st₅ hst₅ hselected
    apply leaves_pure
    exact (additionalFrom_settled (hm₄.grow hst₅) ((hsource.grow hst₄).grow hst₅)).setSelect
      hselected

theorem selectManyArgs_leaves (hp : R.Processes process)
    (hm : ∀ collection, args[0]? = some collection → R.Settled true st scope m)
    (ha : R.Fits st.scopes scope reused .selectMany args) :
    R.Leaves (selectManyArgs process m method args) st fun st' m' =>
      R.Settled reused st' scope m' := by
  unfold selectManyArgs
  split
  next collection =>
    have hcollection := ha.function (i := 0) rfl rfl fun _ => rfl
    exact selectMany_leaves hp (hm collection rfl) hcollection (by simp)
  next collection result =>
    have hcollection := ha.function (i := 0) rfl rfl fun _ => rfl
    apply selectMany_leaves hp (hm collection rfl) hcollection
    intro e he
    obtain rfl : result = e := Option.some.inj he
    exact ha.selector (i := 1) rfl rfl fun _ => rfl
  next => exact leaves_fail

theorem join_leaves (hp : R.Processes process) {grouped : Bool}
    (hm : ∀ outerKey, args[1]? = some outerKey → R.Settled true st scope m)
    (ha : R.Fits st.scopes scope reused (.join grouped) args) :
    R.Leaves (join process grouped m method args) st fun st' m' =>
      R.Settled reused st' scope m' := by
  unfold join
  split
  next inner outerKey innerKey result =>
    have hitems := hm outerKey rfl
    have hinner := ha.value (e := inner) (i := 0) rfl rfl
    have houterKey := ha.function (e := outerKey) (i := 1) rfl rfl fun _ => rfl
    have hinnerKey := ha.function (e := innerKey) (i := 2) rfl rfl fun _ => rfl
    have hresult := ha.selector (e := result) (i := 3) rfl rfl fun _ => rfl
    apply (lambdaArg_leaves houterKey).bind
    rintro outerKey _ - ⟨rfl, houterLength, houterKey⟩
    apply (lambdaArg_leaves hinnerKey).bind
    rintro innerKey _ - ⟨rfl, hinnerLength, hinnerKey⟩
    apply (lambdaArg_leaves hresult).bind
    rintro result _ - ⟨rfl, hresultLength, hresult⟩
    apply (clausePosition_leaves hitems).bind
    intro m₁ st₁ hst₁ hm₁
    apply (hp _ _ _ _ (R.raw_grow hst₁.scopes (R.strip hinner))).bind
    intro origin st₂ hst₂ horigin
    apply (addNamed_leaves _ _ horigin).bind
    intro source st₃ hst₃ hsource
    have hst₁₃ := (hst₁.trans hst₂).trans hst₃
    have hm₃ := (hm₁.grow hst₂).grow hst₃
    apply (resolve_leaves hp hm₃ houterLength (R.raw_grow hst₁₃.scopes houterKey)).bind
    intro outer st₄ hst₄ houter
    have hst₁₄ := hst₁₃.trans hst₄
    have hitem : ∀ v ∈ [Expr.sourceRef source], R.done st₄.scopes (.part scope true) v := by
      simpa using R.source _ _ _
    apply (bind_leaves hp (R.raw_grow hst₁₄.scopes hinnerKey) hitem hinnerLength).bind
    intro innerValue st₅ hst₅ hinnerValue
    have hst₁₅ := hst₁₄.trans hst₅
    have hm₅ := (hm₃.grow hst₄).grow hst₅
    have hvalues :
        ∀ v ∈ [m₁.select, .sourceRef source], R.done st₅.scopes (.part scope true) v := by
      simpa using ⟨hm₅.select rfl, R.source _ _ _⟩
    apply (bind_leaves hp (R.raw_grow hst₁₅.scopes hresult) hvalues hresultLength).bind
    intro selected st₆ hst₆ hselected
    apply leaves_pure
    have hst₄₆ := hst₅.trans hst₆
    have hclause :
        R.Settled true st₆ scope (m₁.addClause (.join grouped source outer innerValue)) := by
      apply (hm₅.grow hst₆).addClause
      · simpa [Clause.expressions] using
          ⟨R.done_grow hst₄₆.scopes houter, R.done_grow hst₆.scopes hinnerValue⟩
      · simpa [Clause.source?] using hsource.grow (hst₄.trans hst₄₆)
    exact hclause.setSelect hselected
  next => exact leaves_fail

theorem orderBy_leaves (hp : R.Processes process) (descending : Bool)
    (hm : R.Settled true st scope m) (he : R.Applies st.scopes scope false e) :
    R.Leaves (orderBy process descending m method e) st fun st' m' =>
      R.Settled true st' scope m' := by
  apply (lambdaArg_leaves he).bind
  rintro lambda _ - ⟨rfl, hlength, hl⟩
  apply (clausePosition_leaves hm).bind
  intro m₁ st₁ hst₁ hm₁
  apply (resolve_leaves hp hm₁ hlength (R.raw_grow hst₁.scopes hl)).bind
  intro key st₂ hst₂ hkey
  apply leaves_pure
  apply (hm₁.grow hst₂).addClause
  · simpa [Clause.expressions] using hkey
  · simp [Clause.source?]

theorem thenBy_leaves (hp : R.Processes process) (descending : Bool)
    (hm : R.Settled true st scope m) (he : R.Applies st.scopes scope false e) :
    R.Leaves (thenBy process descending m method e) st fun st' m' =>
      R.Settled true st' scope m' := by
  apply (lambdaArg_leaves he).bind
  rintro lambda _ - ⟨rfl, hlength, hl⟩
  split
  · apply (resolve_leaves hp hm hlength hl).bind
    intro key st₁ hst₁ hkey
    have hm₁ := hm.grow hst₁
    apply leaves_pure
    refine ⟨hm₁.select, ?_, ?_⟩
    · intro e hin
      simp only [QueryModel.expressions, List.mem_append] at hin
      rcases hin with hin | hin
      · rcases mem_extendOrdering hin with hin | rfl
        · exact hm₁.expressions e (List.mem_append_left _ hin)
        · exact hkey
      · exact hm₁.expressions e (List.mem_append_right _ hin)
    · intro s hs
      simp only [QueryModel.declaredSources, extendOrdering_source?] at hs
      exact hm₁.sources s hs
  · exact leaves_fail

theorem addGrouping_leaves {key element : Expr} (hm : R.Settled reused st scope m)
    (hk : R.done st.scopes (.part scope false) key)
    (he : R.done st.scopes (.part scope false) element) :
    R.Leaves (do
      let source ← addGenerated .groupResult element none
      pure (m.addOperator (.groupBy key element source))) st fun st' m' =>
        R.Settled reused st' scope m' := by
  apply (addGenerated_leaves _ _ he).bind
  intro source st₁ hst₁ hsource
  apply leaves_pure
  apply (hm.grow hst₁).addOperator
  · simpa [ResultOperator.expressions] using
      ⟨R.done_grow hst₁.scopes hk, R.done_grow hst₁.scopes he⟩
  · simpa [ResultOperator.source?] using hsource

theorem groupBy_leaves (hp : R.Processes process) (hm : R.Settled true st scope m)
    (he : R.Applies st.scopes scope false e) {o : Option Expr}
    (ho : ∀ e ∈ o, R.Applies st.scopes scope false e) :
    R.Leaves (groupBy process m method e o) st fun st' m' => R.Settled true st' scope m' := by
  apply (lambdaArg_leaves he).bind
  rintro key _ - ⟨rfl, hlength, hkey⟩
  apply (optionalLambda_leaves ho).bind
  rintro element _ - ⟨rfl, helement⟩
  apply (itemPosition_leaves hm).bind
  intro m₁ st₁ hst₁ hm₁
  apply (resolve_leaves hp hm₁ hlength (R.raw_grow hst₁.scopes hkey)).bind
  intro keyValue st₂ hst₂ hkeyValue
  have hm₂ := hm₁.grow hst₂
  cases element with
  | none => exact addGrouping_leaves hm₂ hkeyValue (R.loosen (hm₂.select rfl))
  | some element =>
    obtain ⟨hlength₂, hbody⟩ := helement element rfl
    have hbody₂ := R.raw_grow (hst₁.trans hst₂).scopes hbody
    apply (resolve_leaves hp hm₂ hlength₂ hbody₂).bind
    intro value st₃ hst₃ hvalue
    exact addGrouping_leaves (hm₂.grow hst₃) (R.done_grow hst₃.scopes hkeyValue) hvalue

theorem groupByArgs_leaves (hp : R.Processes process)
    (hm : ∀ key, args[0]? = some key → R.Settled true st scope m)
    (ha : R.Fits st.scopes scope reused .groupBy args) :
    R.Leaves (groupByArgs process m method args) st fun st' m' => R.Settled true st' scope m' := by
  unfold groupByArgs
  split
  next key =>
    have hkey := ha.function (i := 0) rfl rfl fun _ => rfl
    exact groupBy_leaves hp (hm key rfl) hkey (by simp)
  next key element =>
    have hkey := ha.function (i := 0) rfl rfl fun _ => rfl
    apply groupBy_leaves hp (hm key rfl) hkey
    intro e he
    obtain rfl : element = e := Option.some.inj he
    exact ha.function (i := 1) rfl rfl fun _ => rfl
  next => exact leaves_fail

theorem all_leaves (hp : R.Processes process) (hm : R.Settled true st scope m)
    (he : R.Applies st.scopes scope false e) :
    R.Leaves (do
      let lambda ← lambdaArg method 1 e
      let m ← itemPosition m
      let predicate ← resolve process m lambda
      pure (m.addOperator (.all predicate))) st fun st' m' => R.Settled true st' scope m' := by
  apply (lambdaArg_leaves he).bind
  rintro lambda _ - ⟨rfl, hlength, hl⟩
  apply (itemPosition_leaves hm).bind
  intro m₁ st₁ hst₁ hm₁
  apply (resolve_leaves hp hm₁ hlength (R.raw_grow hst₁.scopes hl)).bind
  intro predicate st₂ hst₂ hpredicate
  exact leaves_pure ((hm₁.grow hst₂).addOver hpredicate rfl rfl)

/-! ### Directives -/

theorem includeLambda_leaves (hm : R.Settled reused st scope m)
    (he : R.Applies st.scopes scope false e) :
    R.Leaves (includeLambda m method e) st fun st' m' => R.Settled reused st' scope m' := by
  apply (lambdaArg_leaves he).bind
  rintro lambda _ - ⟨rfl, -⟩
  apply navigation_leaves.bind
  rintro path _ - rfl
  apply (adoptParam_leaves m lambda).bind
  intro _ st₁ hst₁ _
  exact leaves_pure ((hm.grow hst₁).addBare rfl rfl)

theorem includeString_leaves (hm : R.Settled reused st scope m) :
    R.Leaves (includeString m method e) st fun st' m' => R.Settled reused st' scope m' := by
  unfold includeString
  split
  · split
    · exact leaves_fail
    · exact leaves_pure (hm.addBare rfl rfl)
  · exact leaves_fail

theorem thenInclude_leaves (hm : R.Settled reused st scope m)
    (he : R.Applies st.scopes scope false e) :
    R.Leaves (thenInclude m method e) st fun st' m' => R.Settled reused st' scope m' := by
  apply (lambdaArg_leaves he).bind
  rintro lambda _ - ⟨rfl, -⟩
  apply navigation_leaves.bind
  rintro path _ - rfl
  split
  next ops hops =>
    obtain ⟨hsource, hexpr⟩ := extendInclude?_parts hops
    have hexpr' : ops.reverse.flatMap (·.expressions) = m.operators.flatMap (·.expressions) := by
      have hmap : ops.reverse.map (·.expressions) = m.operators.map (·.expressions) := by
        rw [List.map_reverse, hexpr, ← List.map_reverse, List.reverse_reverse]
      simpa [List.flatMap] using congrArg List.flatten hmap
    have hsource' : ops.reverse.filterMap (·.source?) = m.operators.filterMap (·.source?) := by
      have hmap : ops.reverse.map (·.source?) = m.operators.map (·.source?) := by
        rw [List.map_reverse, hsource, ← List.map_reverse, List.reverse_reverse]
      simpa [List.filterMap_map] using congrArg (List.filterMap id) hmap
    apply leaves_pure
    refine ⟨hm.select, ?_, ?_⟩
    · intro e hin
      simp only [QueryModel.expressions, hexpr'] at hin
      exact hm.expressions e hin
    · intro s hs
      simp only [QueryModel.declaredSources, hsource'] at hs
      exact hm.sources s hs
  next => exact leaves_fail

theorem tagWith_leaves (hm : R.Settled reused st scope m) :
    R.Leaves (tagWith m method e) st fun st' m' => R.Settled reused st' scope m' := by
  unfold tagWith
  split
  · exact leaves_pure (hm.addBare rfl rfl)
  · exact leaves_fail

/-! ### All operators -/

theorem customArgs_leaves (hp : R.Processes process) {name : String}
    (hm : ∀ arg, args[0]? = some arg → R.Settled true st scope m) (i : Nat)
    (ha : ∀ k a, args[k]? = some a →
      let part := OperatorKind.part (.custom name) (i + k) a
      R.raw st.scopes ⟨scope, part.params, [], part.selected && reused⟩ part.body) :
    R.Leaves (customArgs process m args) st fun st' es =>
      ∀ e ∈ es, R.done st'.scopes (.part scope false) e := by
  induction args generalizing st i with
  | nil => exact leaves_pure (by simp)
  | cons arg args ih =>
    have hitems := hm arg rfl
    have hrest : ∀ e st₁, st.Extends st₁ → R.done st₁.scopes (.part scope false) e →
        R.Leaves (do
          let es ← customArgs process m args
          pure (e :: es)) st₁ fun st' es => ∀ e ∈ es, R.done st'.scopes (.part scope false) e := by
      intro e st₁ hst₁ he
      apply (ih (fun _ _ => hitems.grow hst₁) (i + 1) ?_).bind
      · intro es st₂ hst₂ hes
        exact leaves_pure (List.forall_mem_cons.mpr ⟨R.done_grow hst₂.scopes he, hes⟩)
      · intro k a hk
        have hraw := ha (k + 1) a (by simpa using hk)
        rw [show i + (k + 1) = i + 1 + k by omega] at hraw
        exact R.raw_grow hst₁.scopes hraw
    have harg := ha 0 arg rfl
    simp only [OperatorKind.part, OperatorKind.role, OperatorKind.binds] at harg
    unfold customArgs
    split
    next p body heq =>
      simp only [heq] at harg
      have hlambda : R.Leaves (resolve process m ⟨[p], body⟩) st fun st' e =>
          R.done st'.scopes (.part scope false) e :=
            resolve_leaves hp hitems rfl (by simpa using harg)
      exact hlambda.bind fun e st₁ hst₁ he => hrest e st₁ hst₁ he
    next hne =>
      have hraw : R.raw st.scopes (.part scope false) arg.strip := by
        cases hstrip : arg.strip with
        | lambda ps body =>
          have hps : (ps.length == 1) = false := by
            rw [beq_eq_false_iff_ne]
            intro hlength
            obtain ⟨p, rfl⟩ := List.length_eq_one_iff.mp hlength
            exact hne p body hstrip
          simpa [hstrip, hps, Place.part] using harg
        | _ => simpa [hstrip, Place.part] using harg
      exact (hp _ _ _ _ hraw).bind fun e st₁ hst₁ he => hrest e st₁ hst₁ he

theorem oneExpression_leaves (hp : R.Processes process) {kind : OperatorKind}
    (hm : R.Settled reused st scope m) (ha : R.Fits st.scopes scope selected kind args)
    (hrole : kind.role 0 = .value) (op : Expr → ResultOperator) (hs : ∀ e, (op e).source? = none)
    (he : ∀ e, (op e).expressions = [e]) :
    R.Leaves (do
      let e ← process (← oneArg method args)
      pure (m.addOperator (op e))) st fun st' m' => R.Settled reused st' scope m' := by
  apply oneArg_leaves.bind
  rintro a _ - ⟨rfl, rfl⟩
  apply (hp _ _ _ _ (ha.value (i := 0) rfl hrole)).bind
  intro e st₁ hst₁ hdone
  exact leaves_pure ((hm.grow hst₁).addOver hdone (he e) (hs e))

theorem oneFunction_leaves {call : OperatorCall} {kind : OperatorKind} (hk : call.kind = kind)
    (hrole : kind.role 0 = .function) (hbinds : ∀ n, kind.binds n = true)
    (hm : R.Settled (call.applies || reused) st scope m)
    (ha : R.Fits st.scopes scope reused call.kind call.args) :
    R.Leaves (oneArg method call.args) st fun st' a =>
      st' = st ∧ R.Settled true st scope m ∧ R.Applies st.scopes scope false a := by
  apply oneArg_leaves.mono
  rintro _ a - ⟨rfl, hargs⟩
  have hfirst : call.args[0]? = some a := by simp [hargs]
  exact ⟨rfl, hm.items hfirst (by simp [hk, hrole]),
    ha.function hfirst (by rw [hk, hrole]) fun n => by rw [hk, hbinds]⟩

/-- One operator keeps everything done. If it applies a function, the items have to be fit for that,
and so have the items that it leaves, if they are reused. -/
theorem apply_leaves (hp : R.Processes process) (call : OperatorCall)
    (hm : R.Settled (call.applies || reused) st scope m)
    (ha : R.Fits st.scopes scope reused call.kind call.args) :
    R.Leaves (apply process m call) st fun st' m' => R.Settled reused st' scope m' := by
  have hkept : R.Settled reused st scope m := hm.loosen fun hr => by simp [hr]
  have hloosen : ∀ st' (m' : QueryModel), st.Extends st' → R.Settled true st' scope m' →
      R.Settled reused st' scope m' := fun _ _ _ h => h.loosen fun _ => rfl
  unfold apply
  cases hk : call.kind with
  | filter =>
    apply (oneFunction_leaves hk rfl (fun _ => rfl) hm ha).bind
    rintro a st - ⟨rfl, hitems, happlies⟩
    exact (filter_leaves hp hitems happlies).mono hloosen
  | select =>
    rw [hk] at ha
    apply oneArg_leaves.bind
    rintro a st - ⟨rfl, hargs⟩
    have hitems := hm.items (i := 0) (a := a) (by simp [hargs]) (by simp [hk, OperatorKind.role])
    exact select_leaves hp hitems (ha.selector (i := 0) (by simp [hargs]) rfl fun _ => rfl)
  | selectMany =>
    rw [hk] at ha
    exact selectManyArgs_leaves hp (fun _ h => hm.items h (by simp [hk, OperatorKind.role])) ha
  | join grouped =>
    rw [hk] at ha
    exact join_leaves hp (fun _ h => hm.items h (by simp [hk, OperatorKind.role])) ha
  | orderBy descending =>
    apply (oneFunction_leaves hk rfl (fun _ => rfl) hm ha).bind
    rintro a st - ⟨rfl, hitems, happlies⟩
    exact (orderBy_leaves hp descending hitems happlies).mono hloosen
  | thenBy descending =>
    apply (oneFunction_leaves hk rfl (fun _ => rfl) hm ha).bind
    rintro a st - ⟨rfl, hitems, happlies⟩
    exact (thenBy_leaves hp descending hitems happlies).mono hloosen
  | groupBy =>
    rw [hk] at ha
    have hitems : ∀ key, call.args[0]? = some key → R.Settled true st scope m :=
      fun _ h => hm.items h (by simp [hk, OperatorKind.role])
    exact (groupByArgs_leaves hp hitems ha).mono hloosen
  | take =>
    exact oneExpression_leaves hp hkept (hk ▸ ha) rfl .take (fun _ => rfl) fun _ => rfl
  | skip =>
    exact oneExpression_leaves hp hkept (hk ▸ ha) rfl .skip (fun _ => rfl) fun _ => rfl
  | contains =>
    exact oneExpression_leaves hp hkept (hk ▸ ha) rfl .contains (fun _ => rfl) fun _ => rfl
  | combine c =>
    exact oneExpression_leaves hp hkept (hk ▸ ha) rfl (.combine c) (fun _ => rfl) fun _ => rfl
  | element pick orDefault | count long | any =>
    rw [hk] at ha
    apply optionalArg_leaves.bind
    rintro o st - ⟨rfl, hargs⟩
    have hitems := hm.optional hargs (by simp [hk, OperatorKind.role])
    have ho : ∀ e ∈ o, R.Applies st.scopes scope false e := by
      rintro e rfl
      exact ha.function (i := 0) (by simp [hargs]) rfl fun _ => rfl
    apply (filterIf_leaves hp hitems ho).bind
    intro m₁ st₁ _ hm₁
    exact leaves_pure (hm₁.addBare rfl rfl)
  | all =>
    apply (oneFunction_leaves hk rfl (fun _ => rfl) hm ha).bind
    rintro a st - ⟨rfl, hitems, happlies⟩
    exact (all_leaves hp hitems happlies).mono hloosen
  | aggregate a =>
    rw [hk] at ha
    apply optionalArg_leaves.bind
    rintro o st - ⟨rfl, hargs⟩
    have hitems := hm.optional hargs (by simp [hk, OperatorKind.role])
    have ho : ∀ e ∈ o, R.Applies st.scopes scope reused e := by
      rintro e rfl
      exact ha.selector (i := 0) (by simp [hargs]) rfl fun _ => rfl
    apply (selectIf_leaves hp hitems ho).bind
    intro m₁ st₁ _ hm₁
    exact leaves_pure (hm₁.addBare rfl rfl)
  | distinct | reverse | tracking _ | ignoreFilters =>
    apply noArgs_leaves.bind
    rintro _ _ - rfl
    exact leaves_pure (hkept.addBare rfl rfl)
  | cast | ofType =>
    apply noArgs_leaves.bind
    rintro _ _ - rfl
    apply targetType_leaves.bind
    rintro type _ - rfl
    exact leaves_pure (hkept.addBare rfl rfl)
  | defaultIfEmpty =>
    rw [hk] at ha
    apply optionalArg_leaves.bind
    rintro o _ - ⟨rfl, hargs⟩
    cases o with
    | none => exact leaves_pure (hkept.addBare rfl rfl)
    | some arg =>
      apply (hp _ _ _ _ (ha.value (i := 0) (e := arg) (by simp [hargs]) rfl)).bind
      intro e st₁ hst₁ hdone
      exact leaves_pure ((hkept.grow hst₁).addOver hdone rfl rfl)
  | tag =>
    apply oneArg_leaves.bind
    rintro a _ - ⟨rfl, -⟩
    exact tagWith_leaves hkept
  | includeLambda =>
    apply (oneFunction_leaves hk rfl (fun _ => rfl) hm ha).bind
    rintro a st - ⟨rfl, _, happlies⟩
    exact includeLambda_leaves hkept happlies
  | includeString =>
    apply oneArg_leaves.bind
    rintro a _ - ⟨rfl, -⟩
    exact includeString_leaves hkept
  | thenInclude =>
    apply (oneFunction_leaves hk rfl (fun _ => rfl) hm ha).bind
    rintro a st - ⟨rfl, _, happlies⟩
    exact thenInclude_leaves hkept happlies
  | custom name =>
    rw [hk] at ha
    have hitems : ∀ arg, call.args[0]? = some arg → R.Settled true st scope m :=
      fun _ h => hm.items h (by simp [hk, OperatorKind.role])
    apply (customArgs_leaves hp hitems 0 (by simpa [Fits] using ha)).bind
    intro es st₁ hst₁ hes
    exact leaves_pure ((hkept.grow hst₁).addOperator hes (by simp [ResultOperator.source?]))

theorem applyAll_leaves (hp : R.Processes process) (calls : List OperatorCall)
    (hm : R.Settled (calls.any (·.applies)) st scope m)
    (ha : ∀ earlier call later, calls = earlier ++ call :: later →
      R.Fits st.scopes scope (later.any (·.applies)) call.kind call.args) :
    R.Leaves (applyAll process m calls) st fun st' m' => R.Settled false st' scope m' := by
  induction calls generalizing st m with
  | nil => exact leaves_pure hm
  | cons call calls ih =>
    rw [List.any_cons] at hm
    apply (apply_leaves hp call hm (ha [] call calls rfl)).bind
    intro m₁ st₁ hst₁ hm₁
    apply ih hm₁
    intro earlier call' later heq
    exact (ha (call :: earlier) call' later (by rw [heq, List.cons_append])).grow hst₁.scopes

end Construction

end QueryTree
