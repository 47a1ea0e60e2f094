import QueryTree.Proofs.OperatorSteps

/-! Every operator of a chain is applied by a run of steps that records it in the model; directives
and selections leave no record. -/

namespace QueryTree

open QueryTree.Expr

namespace Construction

variable {process : Expr → BuildM Expr} {m n : QueryModel} {c d : Construction} {method : Method}
  {arg e : Expr} {args : List Expr} {lambda : Lambda}

/-! ### Taking arguments -/

theorem oneArg_ok (h : oneArg method args c = .ok (e, d)) : c = d ∧ args = [e] := by
  unfold oneArg at h
  split at h
  · obtain ⟨rfl, rfl⟩ := Prod.mk.inj (Except.ok.inj h)
    exact ⟨rfl, rfl⟩
  · cases h

theorem optionalArg_ok {o : Option Expr} (h : optionalArg method args c = .ok (o, d)) :
    c = d ∧ args = o.toList := by
  unfold optionalArg at h
  split at h
  · obtain ⟨rfl, rfl⟩ := Prod.mk.inj (Except.ok.inj h)
    exact ⟨rfl, rfl⟩
  · obtain ⟨rfl, rfl⟩ := Prod.mk.inj (Except.ok.inj h)
    exact ⟨rfl, rfl⟩
  · cases h

theorem noArgs_ok {u : Unit} (h : noArgs method args c = .ok (u, d)) : c = d ∧ args = [] := by
  unfold noArgs at h
  split at h
  next hempty =>
    obtain ⟨-, rfl⟩ := Prod.mk.inj (Except.ok.inj h)
    exact ⟨rfl, List.isEmpty_iff.mp hempty⟩
  next => cases h

theorem lambdaArg_ok {arity : Nat} (h : lambdaArg method arity arg c = .ok (lambda, d)) :
    c = d ∧ arg.strip = .lambda lambda.params lambda.body := by
  unfold lambdaArg at h
  generalize arg.strip = stripped at h ⊢
  split at h
  · split at h
    · obtain ⟨rfl, rfl⟩ := Prod.mk.inj (Except.ok.inj h)
      exact ⟨rfl, rfl⟩
    · cases h
  · cases h

theorem lambdaArg_of_strip (arity : Nat) {ps : List String} {body : Expr}
    (harg : arg.strip = .lambda ps body) (harity : ps.length = arity) :
    lambdaArg method arity arg = pure ⟨ps, body⟩ := by
  rw [lambdaArg, harg]
  exact if_pos harity

theorem optionalLambda_ok {arity : Nat} {o : Option Expr} {l : Option Lambda}
    (h : optionalLambda method arity o c = .ok (l, d)) :
    c = d ∧ Option.Rel (fun arg lambda => arg.strip = .lambda lambda.params lambda.body) o l := by
  cases o with
  | none =>
    obtain ⟨rfl, rfl⟩ := Prod.mk.inj (Except.ok.inj h)
    exact ⟨rfl, .none⟩
  | some arg =>
    obtain ⟨lambda, c₁, hlambda, h⟩ := bind_ok h
    obtain ⟨rfl, hstrip⟩ := lambdaArg_ok hlambda
    obtain ⟨rfl, rfl⟩ := Prod.mk.inj (Except.ok.inj h)
    exact ⟨rfl, .some hstrip⟩

theorem targetType_ok {type : String} (h : targetType method c = .ok (type, d)) :
    c = d ∧ method.generics.head? = some type := by
  unfold targetType at h
  generalize method.generics = generics at h ⊢
  split at h
  · obtain ⟨rfl, rfl⟩ := Prod.mk.inj (Except.ok.inj h)
    exact ⟨rfl, rfl⟩
  · cases h

/-! ### Positions and sources -/

theorem wrap_run (process : Expr → BuildM Expr) (hlast : m.lastOperator?.isSome = true)
    (h : wrap m c = .ok (n, d)) :
    Run process ⟨m, c⟩ [] ⟨n, d⟩ ∧ n.lastOperator? = none := by
  have hnew : ∀ itemType, (do
      let inner ← addModel m
      let source ← addGenerated .mainFrom (.subQuery inner) itemType
      pure (QueryModel.ofSource source)) c = .ok (n, d) →
      Run process ⟨m, c⟩ [] ⟨n, d⟩ ∧ n.lastOperator? = none := by
    intro itemType h
    obtain ⟨inner, c₁, hinner, h⟩ := bind_ok h
    obtain ⟨rfl, rfl⟩ := Prod.mk.inj (Except.ok.inj hinner)
    obtain ⟨source, c₂, hsource, h⟩ := bind_ok h
    obtain ⟨rfl, rfl⟩ := Prod.mk.inj (Except.ok.inj hsource)
    obtain ⟨rfl, rfl⟩ := Prod.mk.inj (Except.ok.inj h)
    exact ⟨(Step.wrap _ hlast rfl rfl).run, rfl⟩
  unfold wrap at h
  split at h
  · exact hnew none h
  · obtain ⟨itemType, c₁, htype, h⟩ := bind_ok h
    have hsame : c₁ = c := by
      unfold itemType? at htype
      split at htype <;> exact (Prod.mk.inj (Except.ok.inj htype)).2.symm
    exact hnew itemType (hsame ▸ h)

theorem clausePosition_run (process : Expr → BuildM Expr) (h : clausePosition m c = .ok (n, d)) :
    Run process ⟨m, c⟩ [] ⟨n, d⟩ ∧ n.lastOperator? = none := by
  unfold clausePosition at h
  split at h
  next hlast => exact wrap_run process hlast h
  next hlast =>
    obtain ⟨rfl, rfl⟩ := Prod.mk.inj (Except.ok.inj h)
    exact ⟨.refl _, by simpa using hlast⟩

theorem itemPosition_run (process : Expr → BuildM Expr) (h : itemPosition m c = .ok (n, d)) :
    Run process ⟨m, c⟩ [] ⟨n, d⟩ ∧ n.groupSource? = none := by
  unfold itemPosition at h
  split at h
  next hgroups =>
    have hlast : m.lastOperator?.isSome = true := by
      cases hlast : m.lastOperator? with
      | none => simp [QueryModel.groupSource?, hlast] at hgroups
      | some op => rfl
    obtain ⟨hrun, hnone⟩ := wrap_run process hlast h
    exact ⟨hrun, by simp [QueryModel.groupSource?, hnone]⟩
  next hgroups =>
    obtain ⟨rfl, rfl⟩ := Prod.mk.inj (Except.ok.inj h)
    exact ⟨.refl _, by simpa using hgroups⟩

theorem addGenerated_run (process : Expr → BuildM Expr) {kind : SourceKind}
    {itemType : Option String} {s : SourceId} (hkind : kind ≠ .mainFrom)
    (h : addGenerated kind e itemType c = .ok (s, d)) :
    Run process ⟨m, c⟩ [] ⟨m, d⟩ ∧
      ∃ src, d.arena.source? s = some src ∧ src.kind = kind ∧ src.origin = e := by
  obtain ⟨rfl, rfl⟩ := Prod.mk.inj (Except.ok.inj h)
  exact ⟨(Step.source m c _ hkind).run, _, (Arena.source?_addSource ..).trans (if_pos rfl), rfl,
    rfl⟩

theorem addNamed_run (process : Expr → BuildM Expr) {kind : SourceKind} {name : String}
    {s : SourceId} (hkind : kind ≠ .mainFrom) (h : addNamed name kind e c = .ok (s, d)) :
    Run process ⟨m, c⟩ [] ⟨m, d⟩ ∧ ∃ src, d.arena.source? s = some src ∧ src.origin = e := by
  obtain ⟨rfl, rfl⟩ := Prod.mk.inj (Except.ok.inj h)
  exact ⟨(Step.source m c _ hkind).run, _, (Arena.source?_addSource ..).trans (if_pos rfl), rfl⟩

/-! ### Lambdas -/

theorem adoptParam_run {u : Unit} (h : adoptParam m lambda c = .ok (u, d)) :
    Run process ⟨n, c⟩ [] ⟨n, d⟩ := by
  unfold adoptParam at h
  generalize lambda.params = params at h
  split at h
  · obtain ⟨-, rfl⟩ := Prod.mk.inj (Except.ok.inj h)
    exact .refl _
  · unfold adoptName at h
    split at h
    · split at h
      · obtain ⟨-, rfl⟩ := Prod.mk.inj (Except.ok.inj h)
        exact (Step.rename ..).run
      · obtain ⟨-, rfl⟩ := Prod.mk.inj (Except.ok.inj h)
        exact .refl _
    · obtain ⟨-, rfl⟩ := Prod.mk.inj (Except.ok.inj h)
      exact .refl _

theorem bind_run {values : List Expr} (hstrip : arg.strip = .lambda lambda.params lambda.body)
    (h : bind process lambda values c = .ok (e, d)) :
    Run process ⟨m, c⟩ [] ⟨m, d⟩ ∧ Makes process arg e :=
  ⟨(Step.process h).run, _, c, d, .body values hstrip, h⟩

theorem resolve_run (hstrip : arg.strip = .lambda lambda.params lambda.body)
    (h : resolve process m lambda c = .ok (e, d)) :
    Run process ⟨n, c⟩ [] ⟨n, d⟩ ∧ Makes process arg e := by
  obtain ⟨u, c₁, hadopt, h⟩ := bind_ok h
  obtain ⟨hbind, hmakes⟩ := bind_run (m := n) hstrip h
  exact ⟨(adoptParam_run hadopt).trans hbind, hmakes⟩

/-! ### Clauses -/

/-- A lambda over the items that stands in the place of a clause; `f` puts the result into the
model. -/
theorem clauseLambda_run (f : QueryModel → Expr → QueryModel)
    (h : (do
      let lambda ← lambdaArg method 1 arg
      let m ← clausePosition m
      let e ← resolve process m lambda
      pure (f m e)) c = .ok (n, d)) :
    ∃ m₁ e, Run process ⟨m, c⟩ [] ⟨m₁, d⟩ ∧ m₁.lastOperator? = none ∧ Makes process arg e ∧
      n = f m₁ e := by
  obtain ⟨lambda, c₁, hlambda, h⟩ := bind_ok h
  obtain ⟨rfl, hstrip⟩ := lambdaArg_ok hlambda
  obtain ⟨m₁, c₂, hposition, h⟩ := bind_ok h
  obtain ⟨hwrap, hlast⟩ := clausePosition_run process hposition
  obtain ⟨e, c₃, hresolve, h⟩ := bind_ok h
  obtain ⟨hrun, hmakes⟩ := resolve_run (n := m₁) hstrip hresolve
  obtain ⟨rfl, rfl⟩ := Prod.mk.inj (Except.ok.inj h)
  exact ⟨m₁, e, hwrap.trans hrun, hlast, hmakes, rfl⟩

theorem clause_records {kind : OperatorKind} (new : Expr → Clause)
    (hentries : ∀ e, (new e).entries = [⟨kind, none, [.inl e]⟩])
    (htype : OperatorCall.targetType? ⟨method, kind, [arg]⟩ = none)
    (h : (do
      let lambda ← lambdaArg method 1 arg
      let m ← clausePosition m
      let e ← resolve process m lambda
      pure (m.addClause (new e))) c = .ok (n, d)) :
    Records process ⟨m, c⟩ [⟨method, kind, [arg]⟩] [arg] ⟨n, d⟩ := by
  obtain ⟨m₁, e, hrun, hlast, hmakes, rfl⟩ := clauseLambda_run (fun m e => m.addClause (new e)) h
  have hnew : new e ≠ .orderBy [] := by
    intro heq
    have hnil := hentries e
    rw [heq] at hnil
    cases hnil
  refine ⟨_, hrun.trans (Step.clause d (new e) hnew hlast).run, ?_, by simpa using hmakes.handled⟩
  rw [hentries]
  exact .cons ⟨rfl, htype.symm, .cons hmakes .nil⟩ .nil

theorem filter_records (h : filter process m method arg c = .ok (n, d)) :
    Records process ⟨m, c⟩ [⟨method, .filter, [arg]⟩] [arg] ⟨n, d⟩ :=
  clause_records .filter (fun _ => rfl) rfl h

theorem orderBy_records {descending : Bool}
    (h : orderBy process descending m method arg c = .ok (n, d)) :
    Records process ⟨m, c⟩ [⟨method, .orderBy descending, [arg]⟩] [arg] ⟨n, d⟩ :=
  clause_records (fun key => .orderBy [⟨key, descending⟩]) (fun _ => rfl) rfl h

theorem thenBy_records {descending : Bool}
    (h : thenBy process descending m method arg c = .ok (n, d)) :
    Records process ⟨m, c⟩ [⟨method, .thenBy descending, [arg]⟩] [arg] ⟨n, d⟩ := by
  obtain ⟨lambda, c₁, hlambda, h⟩ := bind_ok h
  obtain ⟨rfl, hstrip⟩ := lambdaArg_ok hlambda
  split at h
  next hends =>
    obtain ⟨key, c₂, hresolve, h⟩ := bind_ok h
    obtain ⟨hrun, hmakes⟩ := resolve_run (n := m) hstrip hresolve
    obtain ⟨rfl, rfl⟩ := Prod.mk.inj (Except.ok.inj h)
    refine ⟨_, hrun.trans (Step.ordering c₂ ⟨key, descending⟩ hends).run, ?_,
      by simpa using hmakes.handled⟩
    exact .cons ⟨rfl, rfl, .cons hmakes .nil⟩ .nil
  next => cases h

theorem select_records (h : select process m method arg c = .ok (n, d)) :
    Records process ⟨m, c⟩ [] [arg] ⟨n, d⟩ := by
  obtain ⟨m₁, e, hrun, hlast, hmakes, rfl⟩ := clauseLambda_run (fun m e => { m with select := e }) h
  exact ⟨_, hrun.trans (Step.select d e hlast).run, .nil, by simpa using hmakes.handled⟩

/-- A source that comes with a clause, and what is selected then. -/
theorem clause_select_run (process : Expr → BuildM Expr) (new : Clause) (hnew : new ≠ .orderBy [])
    (hlast : m.lastOperator? = none) (c : Construction) (selected : Expr) :
    Run process ⟨m, c⟩ new.entries ⟨{ m.addClause new with select := selected }, c⟩ := by
  simpa using (Step.clause c new hnew hlast).run.trans
    (Step.select (m := m.addClause new) c selected hlast).run

theorem selectMany_records (hp : Extending process) {result : Option Expr}
    (h : selectMany process m method arg result c = .ok (n, d)) :
    Records process ⟨m, c⟩ [⟨method, .selectMany, [arg]⟩] (arg :: result.toList) ⟨n, d⟩ := by
  obtain ⟨collection, c₁, hlambda, h⟩ := bind_ok h
  obtain ⟨rfl, hstrip⟩ := lambdaArg_ok hlambda
  obtain ⟨result', c₁, hlambda, h⟩ := bind_ok h
  obtain ⟨rfl, hresult⟩ := optionalLambda_ok hlambda
  obtain ⟨m₁, c₂, hposition, h⟩ := bind_ok h
  obtain ⟨hwrap, hlast⟩ := clausePosition_run process hposition
  obtain ⟨origin, c₃, hresolve, h⟩ := bind_ok h
  obtain ⟨horigin, hmakes⟩ := resolve_run (n := m₁) hstrip hresolve
  cases hresult with
  | none =>
    obtain ⟨s, c₄, hs, h⟩ := bind_ok h
    obtain ⟨hsource, src, hsrc, -, heq⟩ := addGenerated_run process (m := m₁) (by simp) hs
    obtain ⟨rfl, rfl⟩ := Prod.mk.inj (Except.ok.inj h)
    have hclause := clause_select_run process (.additionalFrom s) (by simp) hlast c₄
      (.sourceRef s)
    refine ⟨_, hwrap.trans (horigin.trans (hsource.trans hclause)),
      ?_, by simpa using hmakes.handled⟩
    exact .cons ⟨rfl, rfl, .cons ⟨src, hsrc, heq ▸ hmakes⟩ .nil⟩ .nil
  | some hstrip' =>
    obtain ⟨s, c₄, hs, h⟩ := bind_ok h
    obtain ⟨hsource, src, hsrc, heq⟩ := addNamed_run process (m := m₁) (by simp) hs
    obtain ⟨u, c₅, hadopt, h⟩ := bind_ok h
    obtain ⟨selected, c₆, hselect, h⟩ := bind_ok h
    obtain ⟨hbind, hmakes'⟩ := bind_run (m := m₁) hstrip' hselect
    obtain ⟨rfl, rfl⟩ := Prod.mk.inj (Except.ok.inj h)
    have hclause := clause_select_run process (.additionalFrom s) (by simp) hlast c₆ selected
    -- the result lambda is processed after the source is there, and leaves it as it is
    have hlater := (adoptParam_run hadopt).trans hbind
    obtain ⟨src', hsrc', heq'⟩ := (hlater.extends hp).origins s src hsrc
    refine ⟨_, hwrap.trans (horigin.trans (hsource.trans (hlater.trans hclause))), ?_,
      by simpa using ⟨hmakes.handled, hmakes'.handled⟩⟩
    exact .cons ⟨rfl, rfl, .cons ⟨src', hsrc', heq'.trans heq ▸ hmakes⟩ .nil⟩ .nil

theorem join_records (hp : Extending process) {grouped : Bool}
    (h : join process grouped m method args c = .ok (n, d)) :
    Records process ⟨m, c⟩ [⟨method, .join grouped, args.take 3⟩] args ⟨n, d⟩ := by
  unfold join at h
  split at h
  next inner outerKey innerKey result =>
    obtain ⟨outerLambda, c₁, hlambda, h⟩ := bind_ok h
    obtain ⟨rfl, hstrip₁⟩ := lambdaArg_ok hlambda
    obtain ⟨innerLambda, c₁, hlambda, h⟩ := bind_ok h
    obtain ⟨rfl, hstrip₂⟩ := lambdaArg_ok hlambda
    obtain ⟨resultLambda, c₁, hlambda, h⟩ := bind_ok h
    obtain ⟨rfl, hstrip₃⟩ := lambdaArg_ok hlambda
    obtain ⟨m₁, c₂, hposition, h⟩ := bind_ok h
    obtain ⟨hwrap, hlast⟩ := clausePosition_run process hposition
    obtain ⟨origin, c₃, hprocess, h⟩ := bind_ok h
    obtain ⟨s, c₄, hs, h⟩ := bind_ok h
    obtain ⟨hsource, src, hsrc, heq⟩ :=
      addNamed_run process (m := m₁) (by split <;> simp) hs
    obtain ⟨outer, c₅, houter, h⟩ := bind_ok h
    obtain ⟨hrun₁, hmakes₁⟩ := resolve_run (n := m₁) hstrip₁ houter
    obtain ⟨inner', c₆, hinner, h⟩ := bind_ok h
    obtain ⟨hrun₂, hmakes₂⟩ := bind_run (m := m₁) hstrip₂ hinner
    obtain ⟨selected, c₇, hselect, h⟩ := bind_ok h
    obtain ⟨hrun₃, hmakes₃⟩ := bind_run (m := m₁) hstrip₃ hselect
    obtain ⟨rfl, rfl⟩ := Prod.mk.inj (Except.ok.inj h)
    have hmakes : Makes process inner origin := ⟨_, c₂, c₃, .stripped, hprocess⟩
    have hclause := clause_select_run process (.join grouped s outer inner') (by simp) hlast
      c₇ selected
    -- the lambdas are processed after the source is there, and leave it as it is
    have hlater := hrun₁.trans (hrun₂.trans hrun₃)
    obtain ⟨src', hsrc', heq'⟩ := (hlater.extends hp).origins s src hsrc
    have hrun := (Step.process hprocess).run.trans (hsource.trans (hlater.trans hclause))
    refine ⟨_, hwrap.trans hrun, ?_,
      by simpa using ⟨hmakes.handled, hmakes₁.handled, hmakes₂.handled, hmakes₃.handled⟩⟩
    have hfills : Fills process c₇.arena inner (.inr s) := ⟨src', hsrc', heq'.trans heq ▸ hmakes⟩
    exact .cons ⟨rfl, rfl, .cons hfills (.cons hmakes₁ (.cons hmakes₂ .nil))⟩ .nil
  next => cases h

/-! ### Operators on the selected sequence -/

theorem operator_run (process : Expr → BuildM Expr) (m : QueryModel) (c : Construction)
    {op : ResultOperator} (hitems : op.rangesOverItems = false) :
    Run process ⟨m, c⟩ op.entries ⟨m.addOperator op, c⟩ :=
  (Step.operator c op (by simp [hitems])
    (by simp [ResultOperator.source?_of_rangesOverItems hitems])).run

theorem value_records {kind : OperatorKind} (op : Expr → ResultOperator)
    (hentries : ∀ e, (op e).entries = [⟨kind, none, [.inl e]⟩])
    (hitems : ∀ e, (op e).rangesOverItems = false)
    (htype : OperatorCall.targetType? ⟨method, kind, args⟩ = none)
    (h : (do
      let arg ← oneArg method args
      let e ← process arg
      pure (m.addOperator (op e))) c = .ok (n, d)) :
    Records process ⟨m, c⟩ [⟨method, kind, args⟩] args ⟨n, d⟩ := by
  obtain ⟨arg, c₁, hone, h⟩ := bind_ok h
  obtain ⟨rfl, hargs⟩ := oneArg_ok hone
  obtain ⟨e, c₂, hprocess, h⟩ := bind_ok h
  obtain ⟨rfl, rfl⟩ := Prod.mk.inj (Except.ok.inj h)
  subst hargs
  have hmakes : Makes process arg e := ⟨arg, c, c₂, .whole, hprocess⟩
  refine ⟨_, (Step.process hprocess).run.trans (operator_run process m c₂ (hitems e)), ?_,
    by simpa using hmakes.handled⟩
  rw [hentries]
  exact .cons ⟨rfl, htype.symm, .cons hmakes .nil⟩ .nil

/-- An operator that takes no argument; `calls` are those it is recorded by. -/
theorem bare_records {calls : List OperatorCall} {op : ResultOperator}
    (hitems : op.rangesOverItems = false)
    (hcalls : args = [] → List.Forall₂ (Realizes process c.arena) calls op.entries)
    (h : (do
      noArgs method args
      pure (m.addOperator op)) c = .ok (n, d)) :
    Records process ⟨m, c⟩ calls args ⟨n, d⟩ := by
  obtain ⟨u, c₁, hnone, h⟩ := bind_ok h
  obtain ⟨rfl, rfl⟩ := noArgs_ok hnone
  obtain ⟨rfl, rfl⟩ := Prod.mk.inj (Except.ok.inj h)
  exact ⟨_, operator_run process m c hitems, hcalls rfl, by simp⟩

theorem typed_records {kind : OperatorKind} (op : String → ResultOperator)
    (hentries : ∀ type, (op type).entries = [⟨kind, some type, []⟩])
    (hitems : ∀ type, (op type).rangesOverItems = false)
    (htype : OperatorCall.targetType? ⟨method, kind, args⟩ = method.generics.head?)
    (h : (do
      noArgs method args
      let type ← targetType method
      pure (m.addOperator (op type))) c = .ok (n, d)) :
    Records process ⟨m, c⟩ [⟨method, kind, args⟩] args ⟨n, d⟩ := by
  obtain ⟨u, c₁, hnone, h⟩ := bind_ok h
  obtain ⟨rfl, hargs⟩ := noArgs_ok hnone
  obtain ⟨type, c₂, htarget, h⟩ := bind_ok h
  obtain ⟨rfl, hhead⟩ := targetType_ok htarget
  obtain ⟨rfl, rfl⟩ := Prod.mk.inj (Except.ok.inj h)
  subst hargs
  refine ⟨_, operator_run process m c (hitems type), ?_, by simp⟩
  rw [hentries]
  exact .cons ⟨rfl, (htype.trans hhead).symm, .nil⟩ .nil

theorem filterIf_records {o : Option Expr} (h : filterIf process m method o c = .ok (n, d)) :
    Records process ⟨m, c⟩ (if o.toList.isEmpty then [] else [⟨method, .filter, o.toList⟩]) o.toList
      ⟨n, d⟩ := by
  cases o with
  | none =>
    obtain ⟨rfl, rfl⟩ := Prod.mk.inj (Except.ok.inj h)
    exact .refl _
  | some predicate => exact filter_records h

theorem selectIf_records {o : Option Expr} (h : selectIf process m method o c = .ok (n, d)) :
    Records process ⟨m, c⟩ [] o.toList ⟨n, d⟩ := by
  cases o with
  | none =>
    obtain ⟨rfl, rfl⟩ := Prod.mk.inj (Except.ok.inj h)
    exact .refl _
  | some selector => exact select_records h

theorem prepared_records (hp : Extending process) {kind : OperatorKind} {calls : List OperatorCall}
    {op : ResultOperator} {prepare : QueryModel → Method → Option Expr → BuildM QueryModel}
    (hprepare : ∀ {o m₁ c₁}, args = o.toList → prepare m method o c = .ok (m₁, c₁) →
      Records process ⟨m, c⟩ calls args ⟨m₁, c₁⟩)
    (hentries : op.entries = [⟨kind, none, []⟩]) (hitems : op.rangesOverItems = false)
    (htype : OperatorCall.targetType? ⟨method, kind, []⟩ = none)
    (h : (do
      let o ← optionalArg method args
      let m ← prepare m method o
      pure (m.addOperator op)) c = .ok (n, d)) :
    Records process ⟨m, c⟩ (calls ++ [⟨method, kind, []⟩]) args ⟨n, d⟩ := by
  obtain ⟨o, c₁, hoptional, h⟩ := bind_ok h
  obtain ⟨rfl, hargs⟩ := optionalArg_ok hoptional
  obtain ⟨m₁, c₂, hm₁, h⟩ := bind_ok h
  obtain ⟨rfl, rfl⟩ := Prod.mk.inj (Except.ok.inj h)
  have hop : Records process ⟨m₁, c₂⟩ [⟨method, kind, []⟩] [] ⟨m₁.addOperator op, c₂⟩ := by
    refine ⟨_, operator_run process m₁ c₂ hitems, ?_, by simp⟩
    rw [hentries]
    exact .cons ⟨rfl, htype.symm, .nil⟩ .nil
  simpa using (hprepare hargs hm₁).trans hp hop

theorem picked_records (hp : Extending process) {kind : OperatorKind} {op : ResultOperator}
    (hentries : op.entries = [⟨kind, none, []⟩]) (hitems : op.rangesOverItems = false)
    (htype : OperatorCall.targetType? ⟨method, kind, []⟩ = none)
    (h : (do
      let o ← optionalArg method args
      let m ← filterIf process m method o
      pure (m.addOperator op)) c = .ok (n, d)) :
    Records process ⟨m, c⟩
      ((if args.isEmpty then [] else [⟨method, .filter, args⟩]) ++ [⟨method, kind, []⟩]) args
        ⟨n, d⟩ := by
  refine prepared_records hp (fun hargs hm₁ => ?_) hentries hitems htype h
  rw [hargs]
  exact filterIf_records hm₁

/-- The predicate of `All` ranges over items, for which a model of groups is wrapped. -/
theorem all_run (h : (do
      let arg ← oneArg method args
      let lambda ← lambdaArg method 1 arg
      let m ← itemPosition m
      let predicate ← resolve process m lambda
      pure (m.addOperator (.all predicate))) c = .ok (n, d)) :
    ∃ arg m₁ c₁ predicate, args = [arg] ∧ itemPosition m c = .ok (m₁, c₁) ∧
      Run process ⟨m₁, c₁⟩ [] ⟨m₁, d⟩ ∧ Makes process arg predicate ∧
      n = m₁.addOperator (.all predicate) := by
  obtain ⟨arg, c₁, hone, h⟩ := bind_ok h
  obtain ⟨rfl, hargs⟩ := oneArg_ok hone
  obtain ⟨lambda, c₁, hlambda, h⟩ := bind_ok h
  obtain ⟨rfl, hstrip⟩ := lambdaArg_ok hlambda
  obtain ⟨m₁, c₂, hposition, h⟩ := bind_ok h
  obtain ⟨predicate, c₃, hresolve, h⟩ := bind_ok h
  obtain ⟨hrun, hmakes⟩ := resolve_run (n := m₁) hstrip hresolve
  obtain ⟨rfl, rfl⟩ := Prod.mk.inj (Except.ok.inj h)
  exact ⟨arg, m₁, c₂, predicate, hargs, hposition, hrun, hmakes, rfl⟩

theorem all_records (h : (do
      let arg ← oneArg method args
      let lambda ← lambdaArg method 1 arg
      let m ← itemPosition m
      let predicate ← resolve process m lambda
      pure (m.addOperator (.all predicate))) c = .ok (n, d)) :
    Records process ⟨m, c⟩ [⟨method, .all, args⟩] args ⟨n, d⟩ := by
  obtain ⟨arg, m₁, c₁, predicate, rfl, hposition, hrun, hmakes, rfl⟩ := all_run h
  obtain ⟨hwrap, hgroups⟩ := itemPosition_run process hposition
  have hop : Step process ⟨m₁, d⟩ _ _ :=
    Step.operator d (.all predicate) (fun _ => hgroups) (by simp [ResultOperator.source?])
  refine ⟨_, hwrap.trans (hrun.trans hop.run), ?_, by simpa using hmakes.handled⟩
  exact .cons ⟨rfl, rfl, .cons hmakes .nil⟩ .nil

theorem addGroups_run (process : Expr → BuildM Expr) {key item : Expr} (h : (do
      let source ← addGenerated .groupResult item none
      pure (m.addOperator (.groupBy key item source))) c = .ok (n, d)) :
    ∃ s, Run process ⟨m, c⟩ [] ⟨m, d⟩ ∧ d.arena.IsGroups s ∧
      n = m.addOperator (.groupBy key item s) := by
  obtain ⟨s, c₁, hs, h⟩ := bind_ok h
  obtain ⟨hsource, src, hsrc, hkind, -⟩ := addGenerated_run process (m := m) (by simp) hs
  obtain ⟨rfl, rfl⟩ := Prod.mk.inj (Except.ok.inj h)
  exact ⟨s, hsource, ⟨src, hsrc, hkind⟩, rfl⟩

theorem groupBy_run {element : Option Expr}
    (h : groupBy process m method arg element c = .ok (n, d)) :
    ∃ m₁ c₁ key item s, itemPosition m c = .ok (m₁, c₁) ∧ Run process ⟨m₁, c₁⟩ [] ⟨m₁, d⟩ ∧
      d.arena.IsGroups s ∧ Makes process arg key ∧ (∀ arg ∈ element, Makes process arg item) ∧
      n = m₁.addOperator (.groupBy key item s) := by
  obtain ⟨keyLambda, c₁, hlambda, h⟩ := bind_ok h
  obtain ⟨rfl, hstrip⟩ := lambdaArg_ok hlambda
  obtain ⟨elementLambda, c₁, hlambda, h⟩ := bind_ok h
  obtain ⟨rfl, helement⟩ := optionalLambda_ok hlambda
  obtain ⟨m₁, c₂, hposition, h⟩ := bind_ok h
  obtain ⟨key, c₃, hkey, h⟩ := bind_ok h
  obtain ⟨hrun, hmakes⟩ := resolve_run (n := m₁) hstrip hkey
  cases helement with
  | none =>
    obtain ⟨item, c₄, hitem, h⟩ := bind_ok h
    obtain ⟨rfl, rfl⟩ := Prod.mk.inj (Except.ok.inj hitem)
    obtain ⟨s, hsource, hgroups, rfl⟩ := addGroups_run process h
    exact ⟨m₁, c₂, key, _, s, hposition, hrun.trans hsource, hgroups, hmakes, by simp, rfl⟩
  | some hstrip' =>
    obtain ⟨item, c₄, hitem, h⟩ := bind_ok h
    obtain ⟨hrun', hmakes'⟩ := resolve_run (n := m₁) hstrip' hitem
    obtain ⟨s, hsource, hgroups, rfl⟩ := addGroups_run process h
    exact ⟨m₁, c₂, key, item, s, hposition, hrun.trans (hrun'.trans hsource), hgroups, hmakes,
      by simpa using hmakes', rfl⟩

theorem groupByArgs_ok (h : groupByArgs process m method args c = .ok (n, d)) :
    ∃ key element, args = key :: element.toList ∧
      groupBy process m method key element c = .ok (n, d) := by
  unfold groupByArgs at h
  split at h
  next key => exact ⟨key, none, rfl, h⟩
  next key element => exact ⟨key, some element, rfl, h⟩
  next => cases h

theorem groupBy_records {element : Option Expr}
    (h : groupBy process m method arg element c = .ok (n, d)) :
    Records process ⟨m, c⟩ [⟨method, .groupBy, arg :: element.toList⟩] (arg :: element.toList)
      ⟨n, d⟩ := by
  obtain ⟨m₁, c₁, key, item, s, hposition, hrun, hsource, hmakes, hmakes', rfl⟩ := groupBy_run h
  obtain ⟨hwrap, hgroups⟩ := itemPosition_run process hposition
  have hop : Step process ⟨m₁, d⟩ _ _ :=
    Step.operator d (.groupBy key item s) (fun _ => hgroups)
      (by simpa [ResultOperator.source?] using hsource)
  refine ⟨_, hwrap.trans (hrun.trans hop.run), ?_, ?_⟩
  · cases element with
    | none => exact .cons ⟨rfl, rfl, .cons hmakes .nil⟩ .nil
    | some element => exact .cons ⟨rfl, rfl, .cons hmakes (.cons (hmakes' element rfl) .nil)⟩ .nil
  · intro arg' harg
    rcases List.mem_cons.mp harg with rfl | harg
    · exact hmakes.handled
    · exact (hmakes' arg' (Option.mem_toList.mp harg)).handled

theorem defaultIfEmpty_records (h : (do
      match ← optionalArg method args with
      | none => pure (m.addOperator (.defaultIfEmpty none))
      | some arg =>
        let e ← process arg
        pure (m.addOperator (.defaultIfEmpty (some e)))) c = .ok (n, d)) :
    Records process ⟨m, c⟩ [⟨method, .defaultIfEmpty, args⟩] args ⟨n, d⟩ := by
  obtain ⟨o, c₁, hoptional, h⟩ := bind_ok h
  obtain ⟨rfl, hargs⟩ := optionalArg_ok hoptional
  cases o with
  | none =>
    obtain ⟨rfl, rfl⟩ := Prod.mk.inj (Except.ok.inj h)
    subst hargs
    exact ⟨_, operator_run process m c rfl, .cons ⟨rfl, rfl, .nil⟩ .nil, by simp⟩
  | some arg =>
    obtain ⟨e, c₂, hprocess, h⟩ := bind_ok h
    obtain ⟨rfl, rfl⟩ := Prod.mk.inj (Except.ok.inj h)
    subst hargs
    have hmakes : Makes process arg e := ⟨arg, c, c₂, .whole, hprocess⟩
    refine ⟨_, (Step.process hprocess).run.trans (operator_run process m c₂ rfl), ?_,
      by simpa using hmakes.handled⟩
    exact .cons ⟨rfl, rfl, .cons hmakes .nil⟩ .nil

theorem customArgs_run {es : List Expr} (h : customArgs process m args c = .ok (es, d)) :
    Run process ⟨m, c⟩ [] ⟨m, d⟩ ∧ List.Forall₂ (Makes process) args es := by
  induction args generalizing c es with
  | nil =>
    obtain ⟨rfl, rfl⟩ := Prod.mk.inj (Except.ok.inj h)
    exact ⟨.refl _, .nil⟩
  | cons arg args ih =>
    have hrest : ∀ e c₁, Run process ⟨m, c⟩ [] ⟨m, c₁⟩ → Makes process arg e →
        (do
          let es ← customArgs process m args
          pure (e :: es)) c₁ = .ok (es, d) →
        Run process ⟨m, c⟩ [] ⟨m, d⟩ ∧ List.Forall₂ (Makes process) (arg :: args) es := by
      intro e c₁ hrun hmakes h
      obtain ⟨es', c₂, hes, h⟩ := bind_ok h
      obtain ⟨rfl, rfl⟩ := Prod.mk.inj (Except.ok.inj h)
      obtain ⟨hrun', hmakes'⟩ := ih hes
      exact ⟨hrun.trans hrun', .cons hmakes hmakes'⟩
    unfold customArgs at h
    generalize hstrip : arg.strip = stripped at h
    split at h
    · obtain ⟨e, c₁, hresolve, h⟩ := bind_ok h
      obtain ⟨hrun, hmakes⟩ := resolve_run (n := m) hstrip hresolve
      exact hrest e c₁ hrun hmakes h
    · obtain ⟨e, c₁, hprocess, h⟩ := bind_ok h
      exact hrest e c₁ (Step.process hprocess).run ⟨_, c, c₁, hstrip ▸ .stripped, hprocess⟩ h

theorem custom_records {name : String} (h : (do
      let es ← customArgs process m args
      pure (m.addOperator (.custom name es))) c = .ok (n, d)) :
    Records process ⟨m, c⟩ [⟨method, .custom name, args⟩] args ⟨n, d⟩ := by
  obtain ⟨es, c₁, hes, h⟩ := bind_ok h
  obtain ⟨hrun, hmakes⟩ := customArgs_run hes
  obtain ⟨rfl, rfl⟩ := Prod.mk.inj (Except.ok.inj h)
  have hparts : List.Forall₂ (Fills process c₁.arena) args
      ((es.map Sum.inl).take args.length) := by
    rw [hmakes.length_eq, ← List.length_map (f := Sum.inl), List.take_length,
      List.forall₂_map_right_iff]
    exact hmakes
  refine ⟨_, hrun.trans (operator_run process m c₁ rfl), .cons ⟨rfl, rfl, hparts⟩ .nil, ?_⟩
  intro arg harg
  obtain ⟨e, -, hmakes⟩ := exists_of_forall₂ hmakes harg
  exact hmakes.handled

/-! ### Directives -/

theorem navigationFrom_callFree {param : Option String} {names path : List String}
    (h : navigationFrom param e names = .ok path) : e.CallFree := by
  fun_induction navigationFrom param e names with
  | case1 type e names ih => exact callFree_iff.mpr ⟨by simp, by simpa [children] using ih h⟩
  | case2 e names ih => exact callFree_iff.mpr ⟨by simp, by simpa [children] using ih h⟩
  | case3 e member names ih => exact callFree_iff.mpr ⟨by simp, by simpa [children] using ih h⟩
  | case4 => exact callFree_iff.mpr ⟨by simp, by simp [children]⟩
  | case5 | case6 => cases h

theorem navigation_handled (process : Expr → BuildM Expr) {path : List String}
    (hstrip : arg.strip = .lambda lambda.params lambda.body)
    (h : navigation method lambda c = .ok (path, d)) : c = d ∧ Handled process arg := by
  unfold navigation at h
  cases hpath : navigationFrom lambda.params.head? lambda.body [] with
  | error fault =>
    rw [hpath] at h
    cases h
  | ok names =>
    rw [hpath] at h
    obtain ⟨-, rfl⟩ := Prod.mk.inj (Except.ok.inj h)
    refine ⟨rfl, .inr (callFree_of_strip ?_)⟩
    rw [hstrip]
    exact callFree_iff.mpr ⟨by simp, by simpa [children] using navigationFrom_callFree hpath⟩

theorem constant_handled {v : Value} (h : arg.strip = .constant v) : Handled process arg := by
  refine .inr (callFree_of_strip ?_)
  rw [h]
  exact callFree_iff.mpr ⟨by simp, by simp [children]⟩

theorem includeLambda_records (h : includeLambda m method arg c = .ok (n, d)) :
    Records process ⟨m, c⟩ [] [arg] ⟨n, d⟩ := by
  obtain ⟨lambda, c₁, hlambda, h⟩ := bind_ok h
  obtain ⟨rfl, hstrip⟩ := lambdaArg_ok hlambda
  obtain ⟨path, c₂, hpath, h⟩ := bind_ok h
  obtain ⟨rfl, hhandled⟩ := navigation_handled process hstrip hpath
  obtain ⟨u, c₃, hadopt, h⟩ := bind_ok h
  obtain ⟨rfl, rfl⟩ := Prod.mk.inj (Except.ok.inj h)
  exact ⟨_, (adoptParam_run hadopt).trans (operator_run process m c₃ rfl),
    .nil, by simpa using hhandled⟩

theorem includeString_ok (h : includeString m method arg c = .ok (n, d)) :
    c = d ∧ ∃ path, arg.strip = .constant (.string path) ∧
      n = m.addOperator (.includes (includeSource? m) (pathSegments path)) := by
  unfold includeString at h
  generalize hstrip : arg.strip = stripped at h
  split at h
  next path =>
    split at h
    · cases h
    · obtain ⟨rfl, rfl⟩ := Prod.mk.inj (Except.ok.inj h)
      exact ⟨rfl, path, rfl, rfl⟩
  next => cases h

theorem includeString_records (h : includeString m method arg c = .ok (n, d)) :
    Records process ⟨m, c⟩ [] [arg] ⟨n, d⟩ := by
  obtain ⟨rfl, path, hstrip, rfl⟩ := includeString_ok h
  exact ⟨_, operator_run process m c rfl, .nil, by simpa using constant_handled hstrip⟩

theorem thenInclude_ok (h : thenInclude m method arg c = .ok (n, d)) :
    ∃ lambda path ops, arg.strip = .lambda lambda.params lambda.body ∧
      navigation method lambda c = .ok (path, d) ∧
        extendInclude? path m.operators.reverse = some ops ∧
      n = { m with operators := ops.reverse } := by
  obtain ⟨lambda, c₁, hlambda, h⟩ := bind_ok h
  obtain ⟨rfl, hstrip⟩ := lambdaArg_ok hlambda
  obtain ⟨path, c₂, hpath, h⟩ := bind_ok h
  cases hops : extendInclude? path m.operators.reverse with
  | none =>
    rw [hops] at h
    cases h
  | some ops =>
    rw [hops] at h
    obtain ⟨rfl, rfl⟩ := Prod.mk.inj (Except.ok.inj h)
    exact ⟨lambda, path, ops, hstrip, hpath, hops, rfl⟩

theorem thenInclude_records (h : thenInclude m method arg c = .ok (n, d)) :
    Records process ⟨m, c⟩ [] [arg] ⟨n, d⟩ := by
  obtain ⟨lambda, path, ops, hstrip, hpath, hops, rfl⟩ := thenInclude_ok h
  obtain ⟨rfl, hhandled⟩ := navigation_handled process hstrip hpath
  exact ⟨_, (Step.path c hops).run, .nil, by simpa using hhandled⟩

theorem tagWith_ok (h : tagWith m method arg c = .ok (n, d)) :
    c = d ∧ ∃ text, arg.strip = .constant (.string text) ∧ n = m.addOperator (.tag text) := by
  unfold tagWith at h
  generalize hstrip : arg.strip = stripped at h
  split at h
  next text =>
    obtain ⟨rfl, rfl⟩ := Prod.mk.inj (Except.ok.inj h)
    exact ⟨rfl, text, rfl, rfl⟩
  next => cases h

theorem tagWith_records (h : tagWith m method arg c = .ok (n, d)) :
    Records process ⟨m, c⟩ [] [arg] ⟨n, d⟩ := by
  obtain ⟨rfl, text, hstrip, rfl⟩ := tagWith_ok h
  exact ⟨_, operator_run process m c rfl, .nil, by simpa using constant_handled hstrip⟩

/-! ### Operators -/

theorem oneArg_records {kind : OperatorKind} {step : Expr → BuildM QueryModel}
    (h : (do
      let arg ← oneArg method args
      step arg) c = .ok (n, d))
    (hstep : ∀ {arg}, step arg c = .ok (n, d) →
      Records process ⟨m, c⟩ (OperatorCall.contributions ⟨method, kind, [arg]⟩) [arg] ⟨n, d⟩) :
    Records process ⟨m, c⟩ (OperatorCall.contributions ⟨method, kind, args⟩) args ⟨n, d⟩ := by
  obtain ⟨arg, c₁, hone, h⟩ := bind_ok h
  obtain ⟨rfl, rfl⟩ := oneArg_ok hone
  exact hstep h

theorem apply_records (hp : Extending process) {call : OperatorCall}
    (h : apply process m call c = .ok (n, d)) :
    Records process ⟨m, c⟩ call.contributions call.args ⟨n, d⟩ := by
  obtain ⟨method, kind, args⟩ := call
  cases kind with
  | filter => exact oneArg_records h fun h => filter_records h
  | select => exact oneArg_records h fun h => select_records h
  | selectMany =>
    simp only [apply] at h
    unfold selectManyArgs at h
    split at h
    · exact selectMany_records hp h
    · exact selectMany_records hp h
    · cases h
  | join grouped => exact join_records hp h
  | orderBy descending => exact oneArg_records h fun h => orderBy_records h
  | thenBy descending => exact oneArg_records h fun h => thenBy_records h
  | groupBy =>
    obtain ⟨key, element, rfl, h⟩ := groupByArgs_ok h
    exact groupBy_records h
  | take => exact value_records .take (fun _ => rfl) (fun _ => rfl) rfl h
  | skip => exact value_records .skip (fun _ => rfl) (fun _ => rfl) rfl h
  | contains => exact value_records .contains (fun _ => rfl) (fun _ => rfl) rfl h
  | combine combination =>
    exact value_records (.combine combination) (fun _ => rfl) (fun _ => rfl) rfl h
  | element | count | any => exact picked_records hp rfl rfl rfl h
  | all => exact all_records h
  | aggregate a =>
    have hselect : ∀ {o m₁ c₁}, args = o.toList → selectIf process m method o c = .ok (m₁, c₁) →
        Records process ⟨m, c⟩ [] args ⟨m₁, c₁⟩ := by
      rintro o m₁ c₁ rfl hm₁
      exact selectIf_records hm₁
    exact prepared_records hp hselect rfl rfl rfl h
  | distinct | reverse =>
    refine bare_records rfl (fun hargs => ?_) h
    subst hargs
    exact .cons ⟨rfl, rfl, .nil⟩ .nil
  | cast => exact typed_records .cast (fun _ => rfl) (fun _ => rfl) rfl h
  | ofType => exact typed_records .ofType (fun _ => rfl) (fun _ => rfl) rfl h
  | defaultIfEmpty => exact defaultIfEmpty_records h
  | tracking on => exact bare_records rfl (fun _ => .nil) h
  | ignoreFilters => exact bare_records rfl (fun _ => .nil) h
  | tag => exact oneArg_records h fun h => tagWith_records h
  | includeLambda => exact oneArg_records h fun h => includeLambda_records h
  | includeString => exact oneArg_records h fun h => includeString_records h
  | thenInclude => exact oneArg_records h fun h => thenInclude_records h
  | custom name => exact custom_records h

/-- The operators of a chain are recorded one after the other, and all their arguments are
handled. -/
theorem applyAll_records (hp : Extending process) {calls : List OperatorCall}
    (h : applyAll process m calls c = .ok (n, d)) :
    Records process ⟨m, c⟩ (calls.flatMap (·.contributions)) (calls.flatMap (·.args)) ⟨n, d⟩ := by
  induction calls generalizing m c with
  | nil =>
    obtain ⟨rfl, rfl⟩ := Prod.mk.inj (Except.ok.inj h)
    exact .refl _
  | cons call calls ih =>
    obtain ⟨m₁, c₁, happly, h⟩ := bind_ok h
    exact (apply_records hp happly).trans hp (ih h)

end Construction

namespace Builder

open Construction

theorem processor_extending (b : Builder) (limit : Nat) : Extending (b.processor limit) := by
  intro e c e' d h
  have htracks := processor_tracks (.ofSelf b.registry b.passes) limit e c c trivial ⟨rfl, rfl, rfl⟩
  exact (htracks.of_ok h).2.2.grown

end Builder

end QueryTree
