import QueryTree.Model.Construction
import QueryTree.Proofs.ArenaScope
import QueryTree.Proofs.PassReference

/-! Construction keeps scopes. Every step of a construction leaves the arena sound, hands on only
expressions whose references are in scope, and fails only because of the query. -/

namespace QueryTree.Construction

/-- The errors of a construction: the query is faulty, or nests too deep. -/
def Refusal (e : Error) : Prop := e.isQueryError = true ∨ e = .limitExceeded

/-- A step from `c` fails because of the query or ends as `Good` says. -/
def Ensures {α : Type} (x : BuildM α) (c : Construction) (Good : α → Construction → Prop) : Prop :=
  Yields Refusal (fun r => Good r.1 r.2) (x c)

section

variable {α β : Type} {x : BuildM α} {c : Construction} {Good : α → Construction → Prop}

theorem Ensures.bind {f : α → BuildM β} {Next : β → Construction → Prop} (hx : Ensures x c Good)
    (hf : ∀ a c', Good a c' → Ensures (f a) c' Next) : Ensures (x >>= f) c Next :=
  Yields.bind hx fun r h => hf r.1 r.2 h

theorem Ensures.mono {Good' : α → Construction → Prop} (hx : Ensures x c Good)
    (h : ∀ a c', Good a c' → Good' a c') : Ensures x c Good' :=
  Yields.mono hx (fun r hr => h r.1 r.2 hr) fun _ he => he

theorem ensures_pure {a : α} (h : Good a c) : Ensures (pure a) c Good := h

theorem ensures_fail {m : Method} {fault : ArgumentFault} :
    Ensures (fail m fault) c Good :=
  .inl rfl

end

theorem bind_ok {α β : Type} {step : BuildM α} {next : α → BuildM β} {c d : Construction} {b : β}
    (h : (step >>= next) c = .ok (b, d)) :
    ∃ a c₁, step c = .ok (a, c₁) ∧ next a c₁ = .ok (b, d) := by
  obtain ⟨⟨a, c₁⟩, hstep, hnext⟩ := bind_eq_ok.mp h
  exact ⟨a, c₁, hstep, hnext⟩

theorem bind_of_ok {α β : Type} {step : BuildM α} {c c₁ : Construction} {a : α}
    (h : step c = .ok (a, c₁)) (next : α → BuildM β) : (step >>= next) c = next a c₁ := by
  change step c >>= (fun r => next r.1 r.2) = next a c₁
  rw [h]
  rfl

/-- An expression in `scope` is ready after the steps from `c` to `c'`. -/
structure Processed (c : Construction) (scope : List SourceId) (e : Expr) (c' : Construction) :
    Prop where
  grows : c.arena.Grows c'.arena
  sound : c'.arena.Sound scope
  admits : c'.arena.Admits scope e

/-- A model inside `scope` is open after the steps from `c` to `c'`. -/
structure Advanced (c : Construction) (scope : List SourceId) (m : QueryModel)
    (c' : Construction) : Prop where
  grows : c.arena.Grows c'.arena
  model : c'.arena.Open scope m

def Processes (process : Expr → BuildM Expr) : Prop :=
  ∀ scope c e, c.arena.Sound scope → c.arena.Admits scope e →
    Ensures (process e) c (Processed c scope)

def Builds (build : Expr → BuildM QueryModel) : Prop :=
  ∀ scope c e, c.arena.Sound scope → c.arena.Admits scope e →
    Ensures (build e) c (Advanced c scope)

variable {process : Expr → BuildM Expr} {build : Expr → BuildM QueryModel} {scope : List SourceId}
  {c c' c'' : Construction} {m : QueryModel} {method : Method} {e : Expr} {lambda : Lambda}

theorem Advanced.trans (h : Advanced c scope m c') {m' : QueryModel}
    (h' : Advanced c' scope m' c'') : Advanced c scope m' c'' :=
  ⟨h.grows.trans h'.grows, h'.model⟩

theorem Processed.trans (h : Processed c' scope e c'') (hg : c.arena.Grows c'.arena) :
    Processed c scope e c'' :=
  ⟨hg.trans h.grows, h.sound, h.admits⟩

/-! ### Sources and models -/

theorem itemType?_ensures (select : Expr) : Ensures (itemType? select) c fun _ c' => c' = c := by
  unfold itemType? Ensures
  split <;> rfl

theorem adoptName_ensures (select : Expr) (name : String) (hs : c.arena.Sound scope) :
    Ensures (adoptName select name) c fun _ c' =>
      c.arena.Grows c'.arena ∧ c'.arena.Sound scope := by
  simp only [Ensures, adoptName]
  split
  next id =>
    split
    · exact ⟨(hs.renameSource id name).2, (hs.renameSource id name).1⟩
    · exact ⟨.refl _, hs⟩
  next => exact ⟨.refl _, hs⟩

theorem adoptParam_ensures (m : QueryModel) (lambda : Lambda) (hs : c.arena.Sound scope) :
    Ensures (adoptParam m lambda) c fun _ c' =>
      c.arena.Grows c'.arena ∧ c'.arena.Sound scope := by
  unfold adoptParam
  split
  · exact ensures_pure ⟨.refl _, hs⟩
  · exact adoptName_ensures _ _ hs

theorem addModel_ensures (hm : c.arena.Open scope m) :
    Ensures (addModel m) c fun id => Processed c scope (.subQuery id) :=
  have ⟨hs, hg, ha⟩ := hm.addModel
  ⟨hg, hs, ha⟩

theorem addGenerated_starts (kind : SourceKind) (itemType : Option String)
    (hs : c.arena.Sound scope) (he : c.arena.Admits scope e) :
    Ensures (addGenerated kind e itemType) c fun id => Advanced c scope (.ofSource id) :=
  have ⟨ho, hg⟩ :=
    hs.ofSource ⟨"<generated>_" ++ toString c.arena.sources.length, kind, e, itemType⟩ he
  ⟨hg, ho⟩

/-- A generated source joins a model; until its clause is there, it counts as one more sequence. -/
theorem addGenerated_joins (kind : SourceKind) (itemType : Option String)
    (hm : c.arena.Open scope m) (he : c.arena.Admits (m.declaredSources ++ scope) e) :
    Ensures (addGenerated kind e itemType) c fun id =>
      Advanced c scope (m.addClause (.additionalFrom id)) :=
  have ⟨ho, hg⟩ :=
    hm.addSource ⟨"<generated>_" ++ toString c.arena.sources.length, kind, e, itemType⟩ he
  ⟨hg, ho⟩

theorem addNamed_joins (name : String) (kind : SourceKind) (hm : c.arena.Open scope m)
    (he : c.arena.Admits (m.declaredSources ++ scope) e) :
    Ensures (addNamed name kind e) c fun id =>
      Advanced c scope (m.addClause (.additionalFrom id)) :=
  have ⟨ho, hg⟩ := hm.addSource ⟨name, kind, e, rootType? e⟩ he
  ⟨hg, ho⟩

/-- A model becomes a subquery, and its items the source of a new model. -/
theorem wrap_ensures (hm : c.arena.Open scope m) : Ensures (wrap m) c (Advanced c scope) := by
  have hnew : ∀ itemType, Ensures (do
      let inner ← addModel m
      let source ← addGenerated .mainFrom (.subQuery inner) itemType
      pure (QueryModel.ofSource source)) c (Advanced c scope) := by
    intro itemType
    refine (addModel_ensures hm).bind fun inner c₁ h₁ => ?_
    refine (addGenerated_starts _ _ h₁.sound h₁.admits).bind fun source c₂ h₂ => ?_
    exact ensures_pure ⟨h₁.grows.trans h₂.grows, h₂.model⟩
  unfold wrap
  split
  · exact hnew none
  · refine (itemType?_ensures _).bind ?_
    rintro itemType _ rfl
    exact hnew itemType

theorem clausePosition_ensures (hm : c.arena.Open scope m) :
    Ensures (clausePosition m) c (Advanced c scope) := by
  unfold clausePosition
  split
  · exact wrap_ensures hm
  · exact ensures_pure ⟨.refl _, hm⟩

theorem itemPosition_ensures (hm : c.arena.Open scope m) :
    Ensures (itemPosition m) c (Advanced c scope) := by
  unfold itemPosition
  split
  · exact wrap_ensures hm
  · exact ensures_pure ⟨.refl _, hm⟩

/-! ### Arguments -/

theorem oneArg_ensures {args : List Expr} (h : ∀ a ∈ args, c.arena.Admits scope a) :
    Ensures (oneArg method args) c fun a c' => c' = c ∧ c.arena.Admits scope a := by
  unfold oneArg
  split
  · exact ensures_pure ⟨rfl, h _ (by simp)⟩
  · exact ensures_fail

theorem optionalArg_ensures {args : List Expr} (h : ∀ a ∈ args, c.arena.Admits scope a) :
    Ensures (optionalArg method args) c fun o c' => c' = c ∧ ∀ a ∈ o, c.arena.Admits scope a := by
  unfold optionalArg
  split
  · exact ensures_pure ⟨rfl, by simp⟩
  · exact ensures_pure ⟨rfl, by simpa using h⟩
  · exact ensures_fail

theorem noArgs_ensures {args : List Expr} : Ensures (noArgs method args) c fun _ c' => c' = c := by
  unfold noArgs
  split
  · exact ensures_pure rfl
  · exact ensures_fail

theorem lambdaArg_ensures {arity : Nat} (h : c.arena.Admits scope e) :
    Ensures (lambdaArg method arity e) c fun l c' => c' = c ∧ c.arena.Admits scope l.body := by
  unfold lambdaArg
  have hs : c.arena.Admits scope e.strip := h.strip
  split
  next ps body heq =>
    rw [heq] at hs
    split
    · exact ensures_pure ⟨rfl, Expr.refsIn_lambda.mp hs⟩
    · exact ensures_fail
  · exact ensures_fail

theorem optionalLambda_ensures {arity : Nat} {o : Option Expr}
    (h : ∀ a ∈ o, c.arena.Admits scope a) :
    Ensures (optionalLambda method arity o) c fun l c' =>
      c' = c ∧ ∀ lambda ∈ l, c.arena.Admits scope lambda.body := by
  unfold optionalLambda
  split
  · exact ensures_pure ⟨rfl, by simp⟩
  next arg =>
    refine (lambdaArg_ensures (h arg rfl)).bind ?_
    rintro lambda _ ⟨rfl, hl⟩
    exact ensures_pure ⟨rfl, by simpa using hl⟩

/-! ### Lambdas -/

theorem bind_ensures (hp : Processes process) {values : List Expr} (hs : c.arena.Sound scope)
    (hl : c.arena.Admits scope lambda.body) (hv : ∀ v ∈ values, c.arena.Admits scope v) :
    Ensures (bind process lambda values) c (Processed c scope) := by
  apply hp scope c _ hs
  apply hl.substitute
  intro p h
  exact hv p.2 (List.of_mem_zip (mem_ofPairs h)).2

theorem resolve_ensures (hp : Processes process) (hs : c.arena.Sound scope)
    (hl : c.arena.Admits scope lambda.body) (hv : c.arena.Admits scope m.select) :
    Ensures (resolve process m lambda) c (Processed c scope) := by
  refine (adoptParam_ensures m lambda hs).bind fun _ c₁ h₁ => ?_
  refine (bind_ensures hp h₁.2 (hl.grow h₁.1) (by simpa using hv.grow h₁.1)).mono ?_
  intro e c₂ h₂
  exact h₂.trans h₁.1

theorem resolve_in (hp : Processes process) (hm : c.arena.Open scope m)
    (hl : c.arena.Admits scope lambda.body) :
    Ensures (resolve process m lambda) c (Processed c (m.declaredSources ++ scope)) :=
  resolve_ensures hp hm.sound (hl.widen (List.subset_append_right _ _)) hm.select

/-! ### Operators -/

theorem filter_ensures (hp : Processes process) (hm : c.arena.Open scope m)
    (he : c.arena.Admits scope e) : Ensures (filter process m method e) c (Advanced c scope) := by
  refine (lambdaArg_ensures he).bind ?_
  rintro lambda _ ⟨rfl, hl⟩
  refine (clausePosition_ensures hm).bind fun m c₁ h₁ => ?_
  refine (resolve_in hp h₁.model (hl.grow h₁.grows)).bind fun predicate c₂ h₂ => ?_
  refine ensures_pure ⟨h₁.grows.trans h₂.grows, ?_⟩
  exact (h₁.model.grow h₂.grows h₂.sound).addClause rfl
    (by simpa [Clause.expressions] using h₂.admits)

theorem filterIf_ensures (hp : Processes process) (hm : c.arena.Open scope m) {o : Option Expr}
    (he : ∀ e ∈ o, c.arena.Admits scope e) :
    Ensures (filterIf process m method o) c (Advanced c scope) := by
  cases o with
  | none => exact ensures_pure ⟨.refl _, hm⟩
  | some e => exact filter_ensures hp hm (he e rfl)

theorem select_ensures (hp : Processes process) (hm : c.arena.Open scope m)
    (he : c.arena.Admits scope e) : Ensures (select process m method e) c (Advanced c scope) := by
  refine (lambdaArg_ensures he).bind ?_
  rintro lambda _ ⟨rfl, hl⟩
  refine (clausePosition_ensures hm).bind fun m c₁ h₁ => ?_
  refine (resolve_in hp h₁.model (hl.grow h₁.grows)).bind fun selected c₂ h₂ => ?_
  refine ensures_pure ⟨h₁.grows.trans h₂.grows, ?_⟩
  exact (h₁.model.grow h₂.grows h₂.sound).setSelect h₂.admits

theorem selectIf_ensures (hp : Processes process) (hm : c.arena.Open scope m) {o : Option Expr}
    (he : ∀ e ∈ o, c.arena.Admits scope e) :
    Ensures (selectIf process m method o) c (Advanced c scope) := by
  cases o with
  | none => exact ensures_pure ⟨.refl _, hm⟩
  | some e => exact select_ensures hp hm (he e rfl)

/-- A result lambda over the items of a model and of a source that it declares. -/
theorem bindResult_ensures (hp : Processes process) {s : SourceId}
    (hm : c.arena.Open scope (m.addClause (.additionalFrom s)))
    (hl : c.arena.Admits scope lambda.body) :
    Ensures (bind process lambda [m.select, .sourceRef s]) c
      (Processed c ((m.addClause (.additionalFrom s)).declaredSources ++ scope)) := by
  apply bind_ensures hp hm.sound (hl.widen (List.subset_append_right _ _))
  simp only [List.forall_mem_cons, List.not_mem_nil, false_implies, implies_true, and_true]
  exact ⟨hm.select, Arena.admits_declared⟩

theorem selectMany_ensures (hp : Processes process) (hm : c.arena.Open scope m)
    (he : c.arena.Admits scope e) {o : Option Expr} (ho : ∀ e ∈ o, c.arena.Admits scope e) :
    Ensures (selectMany process m method e o) c (Advanced c scope) := by
  refine (lambdaArg_ensures he).bind ?_
  rintro collection _ ⟨rfl, hl⟩
  refine (optionalLambda_ensures ho).bind ?_
  rintro result _ ⟨rfl, hr⟩
  refine (clausePosition_ensures hm).bind fun m c₁ h₁ => ?_
  refine (resolve_in hp h₁.model (hl.grow h₁.grows)).bind fun origin c₂ h₂ => ?_
  have hm₂ := h₁.model.grow h₂.grows h₂.sound
  have hg₂ := h₁.grows.trans h₂.grows
  cases result with
  | none =>
    refine (addGenerated_joins _ _ hm₂ h₂.admits).bind fun s c₃ h₃ => ?_
    exact ensures_pure ⟨hg₂.trans h₃.grows, h₃.model.setSelect Arena.admits_declared⟩
  | some result =>
    refine (addNamed_joins _ _ hm₂ h₂.admits).bind fun s c₃ h₃ => ?_
    refine (adoptParam_ensures m result h₃.model.sound).bind fun _ c₄ h₄ => ?_
    have hm₄ := h₃.model.grow h₄.1 h₄.2
    have hg₄ := (hg₂.trans h₃.grows).trans h₄.1
    refine (bindResult_ensures hp hm₄ ((hr result rfl).grow hg₄)).bind fun selected c₅ h₅ => ?_
    exact ensures_pure ⟨hg₄.trans h₅.grows, (hm₄.grow h₅.grows h₅.sound).setSelect h₅.admits⟩

theorem selectManyArgs_ensures (hp : Processes process) (hm : c.arena.Open scope m)
    {args : List Expr} (ha : ∀ a ∈ args, c.arena.Admits scope a) :
    Ensures (selectManyArgs process m method args) c (Advanced c scope) := by
  unfold selectManyArgs
  split
  · exact selectMany_ensures hp hm (ha _ (by simp)) (by simp)
  · exact selectMany_ensures hp hm (ha _ (by simp)) (by simpa using ha _ (by simp))
  · exact ensures_fail

theorem join_ensures (hp : Processes process) (grouped : Bool) (hm : c.arena.Open scope m)
    {args : List Expr} (ha : ∀ a ∈ args, c.arena.Admits scope a) :
    Ensures (join process grouped m method args) c (Advanced c scope) := by
  unfold join
  split
  next inner outerKey innerKey result =>
    simp only [List.forall_mem_cons, List.not_mem_nil, false_implies, implies_true,
      and_true] at ha
    obtain ⟨hinner, houterKey, hinnerKey, hresult⟩ := ha
    refine (lambdaArg_ensures houterKey).bind ?_
    rintro outerKey _ ⟨rfl, houterKey⟩
    refine (lambdaArg_ensures hinnerKey).bind ?_
    rintro innerKey _ ⟨rfl, hinnerKey⟩
    refine (lambdaArg_ensures hresult).bind ?_
    rintro result _ ⟨rfl, hresult⟩
    refine (clausePosition_ensures hm).bind fun m c₁ h₁ => ?_
    have hin : c₁.arena.Admits (m.declaredSources ++ scope) inner.strip :=
      (hinner.strip.grow h₁.grows).widen (List.subset_append_right _ _)
    refine (hp _ _ _ h₁.model.sound hin).bind fun origin c₂ h₂ => ?_
    have hm₂ := h₁.model.grow h₂.grows h₂.sound
    refine (addNamed_joins _ _ hm₂ h₂.admits).bind fun s c₃ h₃ => ?_
    have hg₃ := (h₁.grows.trans h₂.grows).trans h₃.grows
    -- from here on the new source counts as a sequence of its own, as in `addNamed_joins`
    have widen : ∀ {l : Lambda}, c₃.arena.Admits scope l.body → c₃.arena.Admits
        ((m.addClause (.additionalFrom s)).declaredSources ++ scope) l.body :=
      fun h => h.widen (List.subset_append_right _ _)
    refine (resolve_ensures hp h₃.model.sound (widen (houterKey.grow hg₃)) h₃.model.select).bind
      fun outer c₄ h₄ => ?_
    refine (bind_ensures hp h₄.sound ((widen (hinnerKey.grow hg₃)).grow h₄.grows)
      (by simpa using Arena.admits_declared)).bind fun inner c₅ h₅ => ?_
    have hg₅ := h₄.grows.trans h₅.grows
    have hm₅ := h₃.model.grow hg₅ h₅.sound
    refine (bindResult_ensures hp hm₅ ((hresult.grow hg₃).grow hg₅)).bind fun selected c₆ h₆ => ?_
    refine ensures_pure ⟨(hg₃.trans hg₅).trans h₆.grows, ?_⟩
    apply (hm₅.grow h₆.grows h₆.sound).update
    · simp [QueryModel.declaredSources, QueryModel.addClause, Clause.source?]
    · intro e he
      simp only [QueryModel.expressions, QueryModel.addClause, List.flatMap_append,
        List.flatMap_singleton, Clause.expressions, List.mem_append, List.mem_cons,
        List.not_mem_nil, or_false] at he ⊢
      rcases he with (he | rfl | rfl) | rfl | he
      · exact .inl (.inl he)
      · exact .inr ((h₄.admits.grow h₅.grows).grow h₆.grows)
      · exact .inr (h₅.admits.grow h₆.grows)
      · exact .inr h₆.admits
      · exact .inl (.inr (.inr he))
  next => exact ensures_fail

theorem orderBy_ensures (hp : Processes process) (descending : Bool) (hm : c.arena.Open scope m)
    (he : c.arena.Admits scope e) :
    Ensures (orderBy process descending m method e) c (Advanced c scope) := by
  refine (lambdaArg_ensures he).bind ?_
  rintro lambda _ ⟨rfl, hl⟩
  refine (clausePosition_ensures hm).bind fun m c₁ h₁ => ?_
  refine (resolve_in hp h₁.model (hl.grow h₁.grows)).bind fun key c₂ h₂ => ?_
  refine ensures_pure ⟨h₁.grows.trans h₂.grows, ?_⟩
  exact (h₁.model.grow h₂.grows h₂.sound).addClause rfl
    (by simpa [Clause.expressions] using h₂.admits)

theorem extendOrdering_source? (key : SortKey) (clauses : List Clause) :
    (extendOrdering key clauses).filterMap (·.source?) = clauses.filterMap (·.source?) := by
  fun_induction extendOrdering key clauses <;> simp_all [Clause.source?, List.filterMap_cons]

theorem mem_extendOrdering {key : SortKey} {clauses : List Clause}
    (h : e ∈ (extendOrdering key clauses).flatMap (·.expressions)) :
    e ∈ clauses.flatMap (·.expressions) ∨ e = key.key := by
  fun_induction extendOrdering key clauses with
  | case1 => exact .inl h
  | case2 keys =>
    simp only [List.flatMap_singleton, Clause.expressions, List.map_append, List.mem_append] at h ⊢
    simpa using h
  | case3 clause clauses _ ih =>
    simp only [List.flatMap_cons, List.mem_append] at h ⊢
    rcases h with h | h
    · exact .inl (.inl h)
    · exact (ih h).imp_left .inr

theorem thenBy_ensures (hp : Processes process) (descending : Bool) (hm : c.arena.Open scope m)
    (he : c.arena.Admits scope e) :
    Ensures (thenBy process descending m method e) c (Advanced c scope) := by
  refine (lambdaArg_ensures he).bind ?_
  rintro lambda _ ⟨rfl, hl⟩
  split
  · refine (resolve_in hp hm hl).bind fun key c₁ h₁ => ?_
    refine ensures_pure ⟨h₁.grows, (hm.grow h₁.grows h₁.sound).update ?_ ?_⟩
    · simp [QueryModel.declaredSources, extendOrdering_source?]
    · intro e he
      simp only [QueryModel.expressions, List.mem_append] at he ⊢
      rcases he with he | he
      · rcases mem_extendOrdering he with he | rfl
        · exact .inl (.inl he)
        · exact .inr h₁.admits
      · exact .inl (.inr he)
  · exact ensures_fail

theorem addGrouping_ensures {key element : Expr} (hm : c.arena.Open scope m)
    (hk : c.arena.Admits (m.declaredSources ++ scope) key)
    (he : c.arena.Admits (m.declaredSources ++ scope) element) :
    Ensures (do
      let source ← addGenerated .groupResult element none
      pure (m.addOperator (.groupBy key element source))) c (Advanced c scope) := by
  refine (addGenerated_joins _ _ hm he).bind fun s c₁ h₁ => ?_
  refine ensures_pure ⟨h₁.grows, ?_⟩
  have hsub := Arena.scope_addFrom m s scope
  apply h₁.model.update
  · simp only [QueryModel.declaredSources, QueryModel.addOperator, QueryModel.addClause,
      List.filterMap_append, List.filterMap_cons, List.filterMap_nil, ResultOperator.source?,
      Clause.source?, List.append_assoc]
    exact ((List.perm_append_comm).append_left _).cons _
  · intro e hin
    simp only [QueryModel.expressions, QueryModel.addOperator, QueryModel.addClause,
      List.flatMap_append, List.flatMap_singleton, Clause.expressions, ResultOperator.expressions,
      List.mem_append, List.mem_cons, List.not_mem_nil, or_false] at hin ⊢
    rcases hin with hin | hin | hin | rfl | rfl
    · exact .inl (.inl hin)
    · exact .inl (.inr (.inl hin))
    · exact .inl (.inr (.inr hin))
    · exact .inr ((hk.grow h₁.grows).widen hsub)
    · exact .inr ((he.grow h₁.grows).widen hsub)

theorem groupBy_ensures (hp : Processes process) (hm : c.arena.Open scope m)
    (he : c.arena.Admits scope e) {o : Option Expr} (ho : ∀ e ∈ o, c.arena.Admits scope e) :
    Ensures (groupBy process m method e o) c (Advanced c scope) := by
  refine (lambdaArg_ensures he).bind ?_
  rintro key _ ⟨rfl, hl⟩
  refine (optionalLambda_ensures ho).bind ?_
  rintro element _ ⟨rfl, hr⟩
  refine (itemPosition_ensures hm).bind fun m c₁ h₁ => ?_
  refine (resolve_in hp h₁.model (hl.grow h₁.grows)).bind fun key c₂ h₂ => ?_
  have hm₂ := h₁.model.grow h₂.grows h₂.sound
  have hg₂ := h₁.grows.trans h₂.grows
  cases element with
  | none =>
    exact (addGrouping_ensures hm₂ h₂.admits hm₂.select).mono fun m c₃ h₃ =>
      ⟨hg₂.trans h₃.grows, h₃.model⟩
  | some element =>
    refine (resolve_in hp hm₂ ((hr element rfl).grow hg₂)).bind fun element c₃ h₃ => ?_
    have hm₃ := hm₂.grow h₃.grows h₃.sound
    exact (addGrouping_ensures hm₃ (h₂.admits.grow h₃.grows) h₃.admits).mono fun m c₄ h₄ =>
      ⟨(hg₂.trans h₃.grows).trans h₄.grows, h₄.model⟩

theorem groupByArgs_ensures (hp : Processes process) (hm : c.arena.Open scope m)
    {args : List Expr} (ha : ∀ a ∈ args, c.arena.Admits scope a) :
    Ensures (groupByArgs process m method args) c (Advanced c scope) := by
  unfold groupByArgs
  split
  · exact groupBy_ensures hp hm (ha _ (by simp)) (by simp)
  · exact groupBy_ensures hp hm (ha _ (by simp)) (by simpa using ha _ (by simp))
  · exact ensures_fail

/-! ### Directives and operators of extensions -/

theorem navigation_ensures : Ensures (navigation method lambda) c fun _ c' => c' = c := by
  unfold navigation
  split
  · exact ensures_pure rfl
  · exact ensures_fail

theorem includeLambda_ensures (hm : c.arena.Open scope m) (he : c.arena.Admits scope e) :
    Ensures (includeLambda m method e) c (Advanced c scope) := by
  refine (lambdaArg_ensures he).bind ?_
  rintro lambda _ ⟨rfl, -⟩
  refine navigation_ensures.bind ?_
  rintro path _ rfl
  refine (adoptParam_ensures m lambda hm.sound).bind fun _ c₁ h₁ => ?_
  exact ensures_pure
    ⟨h₁.1, (hm.grow h₁.1 h₁.2).addOperator rfl (by simp [ResultOperator.expressions])⟩

theorem includeString_ensures (hm : c.arena.Open scope m) :
    Ensures (includeString m method e) c (Advanced c scope) := by
  unfold includeString
  split
  · split
    · exact ensures_fail
    · exact ensures_pure ⟨.refl _, hm.addOperator rfl (by simp [ResultOperator.expressions])⟩
  · exact ensures_fail

/-- An include has neither a source of its own nor expressions, so a longer path changes nothing. -/
theorem extendInclude?_parts {path : List String} {ops ops' : List ResultOperator}
    (h : extendInclude? path ops = some ops') :
    ops'.map (·.source?) = ops.map (·.source?) ∧
      ops'.map (·.expressions) = ops.map (·.expressions) := by
  fun_induction extendInclude? path ops generalizing ops' with
  | case1 => cases h
  | case2 source front ops =>
    obtain rfl := Option.some.inj h
    exact ⟨rfl, rfl⟩
  | case3 op ops _ ih =>
    obtain ⟨rest, hrest, rfl⟩ := Option.map_eq_some_iff.mp h
    simp [ih hrest]

theorem thenInclude_ensures (hm : c.arena.Open scope m) (he : c.arena.Admits scope e) :
    Ensures (thenInclude m method e) c (Advanced c scope) := by
  refine (lambdaArg_ensures he).bind ?_
  rintro lambda _ ⟨rfl, -⟩
  refine navigation_ensures.bind ?_
  rintro path _ rfl
  split
  next ops hops =>
    obtain ⟨hsource, hexpr⟩ := extendInclude?_parts hops
    have hs : ops.reverse.map (·.source?) = m.operators.map (·.source?) := by
      rw [List.map_reverse, hsource, ← List.map_reverse, List.reverse_reverse]
    have he : ops.reverse.map (·.expressions) = m.operators.map (·.expressions) := by
      rw [List.map_reverse, hexpr, ← List.map_reverse, List.reverse_reverse]
    refine ensures_pure ⟨.refl _, hm.update ?_ fun e hin => .inl ?_⟩
    · have : ops.reverse.filterMap (·.source?) = m.operators.filterMap (·.source?) := by
        simpa [List.filterMap_map] using congrArg (List.filterMap id) hs
      simp only [QueryModel.declaredSources, this]
      exact .refl _
    · have : ops.reverse.flatMap (·.expressions) = m.operators.flatMap (·.expressions) := by
        simpa [List.flatMap] using congrArg List.flatten he
      simpa only [QueryModel.expressions, this] using hin
  next => exact ensures_fail

theorem tagWith_ensures (hm : c.arena.Open scope m) :
    Ensures (tagWith m method e) c (Advanced c scope) := by
  unfold tagWith
  split
  · exact ensures_pure ⟨.refl _, hm.addOperator rfl (by simp [ResultOperator.expressions])⟩
  · exact ensures_fail

theorem targetType_ensures : Ensures (targetType method) c fun _ c' => c' = c := by
  unfold targetType
  split
  · exact ensures_pure rfl
  · exact ensures_fail

end QueryTree.Construction
