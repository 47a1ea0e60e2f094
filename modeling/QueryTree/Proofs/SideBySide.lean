import QueryTree.Proofs.Spine

/-! Two constructions side by side. The registries read the expressions alike, the states agree in
all that a construction looks at, and the models differ at most in their settings; then both
constructions fail with one error or both go on, and the same holds afterwards. Models that differ
lie on the spine of the model in the making. -/

namespace QueryTree

/-- Directives that say how the whole query is run; an include belongs to a source. -/
def ResultOperator.isSetting : ResultOperator → Bool
  | tracking _ | tag _ | ignoreFilters => true
  | _ => false

/-- Operators that count when models are compared: all of them, or all but settings. -/
def ResultOperator.counts (loose : Bool) (op : ResultOperator) : Bool := !(loose && op.isSetting)

/-- Equal models; if `loose`, models that are equal up to their settings. -/
structure QueryModel.Like (loose : Bool) (m m' : QueryModel) : Prop where
  mainFrom : m'.mainFrom = m.mainFrom
  clauses : m'.clauses = m.clauses
  select : m'.select = m.select
  operators : m'.operators.filter (·.counts loose) = m.operators.filter (·.counts loose)

namespace QueryModel.Like

variable {loose : Bool} {m m' : QueryModel}

theorem refl (m : QueryModel) : m.Like loose m := ⟨rfl, rfl, rfl, rfl⟩

theorem eq (h : m.Like false m') : m' = m := by
  obtain ⟨mainFrom, clauses, select, operators⟩ := m
  obtain ⟨mainFrom', clauses', select', operators'⟩ := m'
  obtain ⟨rfl, rfl, rfl, hops⟩ := h
  have hall : ∀ op : ResultOperator, op.counts false = true := fun _ => rfl
  simpa [List.filter_eq_self.mpr fun op _ => hall op] using hops

theorem lastOperator? (h : m.Like loose m') : m'.lastOperator? = m.lastOperator? := by
  have hlast : ∀ ops : List ResultOperator, ops.reverse.find? (!·.isDirective) =
      (ops.filter (·.counts loose)).reverse.find? (!·.isDirective) := by
    intro ops
    rw [← List.filter_reverse, List.find?_filter]
    congr 1
    funext op
    cases op <;> simp [ResultOperator.counts, ResultOperator.isSetting, ResultOperator.isDirective]
  rw [QueryModel.lastOperator?, QueryModel.lastOperator?, hlast, hlast m.operators, h.operators]

theorem groupSource? (h : m.Like loose m') : m'.groupSource? = m.groupSource? := by
  rw [QueryModel.groupSource?, QueryModel.groupSource?, h.lastOperator?]

theorem endsInOrdering (h : m.Like loose m') :
    Construction.endsInOrdering m' = Construction.endsInOrdering m := by
  rw [Construction.endsInOrdering, Construction.endsInOrdering, h.lastOperator?, h.clauses]

theorem includeSource? (h : m.Like loose m') :
    Construction.includeSource? m' = Construction.includeSource? m := by
  rw [Construction.includeSource?, Construction.includeSource?, h.select]

theorem addClause (h : m.Like loose m') (c : Clause) :
    (m.addClause c).Like loose (m'.addClause c) := by
  refine ⟨h.mainFrom, ?_, h.select, h.operators⟩
  rw [QueryModel.addClause, QueryModel.addClause, h.clauses]

theorem addOperator (h : m.Like loose m') (op : ResultOperator) :
    (m.addOperator op).Like loose (m'.addOperator op) := by
  refine ⟨h.mainFrom, h.clauses, h.select, ?_⟩
  simp only [QueryModel.addOperator, List.filter_append, h.operators]

theorem addSetting (h : m.Like true m') {op : ResultOperator} (hop : op.isSetting = true) :
    m.Like true (m'.addOperator op) := by
  refine ⟨h.mainFrom, h.clauses, h.select, ?_⟩
  have hnone : [op].filter (·.counts true) = [] := by simp [ResultOperator.counts, hop]
  rw [QueryModel.addOperator, List.filter_append, hnone, List.append_nil, h.operators]

end QueryModel.Like

theorem Construction.extendInclude?_filter {loose : Bool} (path : List String)
    (ops : List ResultOperator) :
    extendInclude? path (ops.filter (·.counts loose)) =
      (extendInclude? path ops).map (·.filter (·.counts loose)) := by
  fun_induction extendInclude? path ops with
  | case1 => rfl
  | case2 source front ops =>
    have hcounts : ∀ path, (ResultOperator.includes source path).counts loose = true := by
      simp [ResultOperator.counts, ResultOperator.isSetting]
    simp [extendInclude?, hcounts]
  | case3 op ops hop ih =>
    by_cases hcounts : op.counts loose = true
    · simp [hcounts, extendInclude?, ih, Function.comp_def]
    · simp [hcounts, ih, Function.comp_def]

/-! ### Registries -/

/-- Expressions that two registries read alike, also after a construction has replaced variables in
them, cut chains out and run its passes. -/
structure Accord (r r' : Registry) (passes : List Pass) where
  fit : Expr → Prop
  source : ∀ s, fit (.sourceRef s)
  subquery : ∀ j, fit (.subQuery j)
  kind? : ∀ {e}, fit e → r'.kind? e = r.kind? e
  child : ∀ {e}, fit e → ∀ c ∈ e.children, fit c
  rebuild : ∀ {e es}, fit e → es.length = e.children.length → (∀ c ∈ es, fit c) →
    fit (e.withChildren es)
  bind : ∀ {ps : List String} {values : List Expr} {body}, fit body → (∀ v ∈ values, fit v) →
    fit (body.substitute (Bindings.ofPairs (ps.zip values)))
  passes : ∀ {e}, fit e → Yields (fun _ => True) fit (Pass.runAll passes e)

namespace Accord

/-- A registry agrees with itself. -/
def ofSelf (r : Registry) (passes : List Pass) : Accord r r passes where
  fit _ := True
  source _ := trivial
  subquery _ := trivial
  kind? _ := rfl
  child _ _ _ := trivial
  rebuild _ _ _ := trivial
  bind _ _ := trivial
  passes {e} _ := by cases Pass.runAll passes e <;> exact trivial

variable {r r' : Registry} {passes : List Pass} (A : Accord r r' passes) {e : Expr}

theorem strip (h : A.fit e) : A.fit e.strip := by
  fun_induction Expr.strip e with
  | case1 _ e ih => exact ih (A.child h e (by simp [Expr.children]))
  | case2 e ih => exact ih (A.child h e (by simp [Expr.children]))
  | case3 e => exact h

theorem lambda {ps : List String} {body : Expr} (h : A.fit e) (hl : e.strip = .lambda ps body) :
    A.fit body := by
  have hstrip := A.strip h
  rw [hl] at hstrip
  exact A.child hstrip body (by simp [Expr.children])

theorem chain (h : A.fit e) : r'.chain e = r.chain e ∧ A.fit (r.chain e).1 ∧
    ∀ call ∈ (r.chain e).2, ∀ a ∈ call.args, A.fit a := by
  fun_induction Registry.chain r e with
  | case1 type e ih => exact ih (A.child h e (by simp [Expr.children]))
  | case2 e ih => exact ih (A.child h e (by simp [Expr.children]))
  | case3 m s args kind hkind ih =>
    obtain ⟨hchain, hroot, hcalls⟩ := ih (A.child h s (by simp [Expr.children]))
    have hkind' : r'.lookup m = some kind := (A.kind? h).trans hkind
    refine ⟨by simp only [Registry.chain, hkind', hchain], hroot, fun call hcall => ?_⟩
    rcases List.mem_append.mp hcall with hcall | hcall
    · exact hcalls call hcall
    · obtain rfl := List.mem_singleton.mp hcall
      exact fun a ha => A.child h a (by simp [Expr.children, ha])
  | case4 m s args hkind =>
    have hkind' : r'.lookup m = none := (A.kind? h).trans hkind
    exact ⟨by simp only [Registry.chain, hkind'], h, by simp⟩
  | case5 e hconvert hquote hcall =>
    refine ⟨?_, h, by simp⟩
    rw [Registry.chain.eq_def]
    split <;> simp_all

end Accord

namespace Construction

/-! ### Steps -/

/-- Both steps fail with one error, or they end as `Good` says. -/
def Beside {α : Type} (x y : BuildM α) (c c' : Construction)
    (Good : α → α → Construction → Construction → Prop) : Prop :=
  match x c, y c' with
  | .ok (a, d), .ok (a', d') => Good a a' d d'
  | .error e, .error e' => e = e'
  | _, _ => False

section

variable {α β : Type} {x y : BuildM α} {c c' : Construction}
  {Good : α → α → Construction → Construction → Prop}

theorem Beside.bind {f g : α → BuildM β} {Next : β → β → Construction → Construction → Prop}
    (hx : Beside x y c c' Good)
    (hf : ∀ a a' d d', Good a a' d d' → Beside (f a) (g a') d d' Next) :
    Beside (x >>= f) (y >>= g) c c' Next := by
  unfold Beside at hx
  have hleft : ∀ (x : BuildM α) (f : α → BuildM β) c, (x >>= f) c = x c >>= fun r => f r.1 r.2 :=
    fun _ _ _ => rfl
  unfold Beside
  rw [hleft, hleft]
  cases hxc : x c with
  | error e =>
    cases hyc : y c' with
    | error e' =>
      rw [hxc, hyc] at hx
      exact hx
    | ok r' => simp [hxc, hyc] at hx
  | ok r =>
    cases hyc : y c' with
    | error e' => simp [hxc, hyc] at hx
    | ok r' =>
      rw [hxc, hyc] at hx
      exact hf r.1 r'.1 r.2 r'.2 hx

theorem Beside.of_ok {d : Construction} (h : Beside x x c c Good) {a : α} (hok : x c = .ok (a, d)) :
    Good a a d d := by
  simpa only [Beside, hok] using h

theorem Beside.mono {Good' : α → α → Construction → Construction → Prop} (hx : Beside x y c c' Good)
    (h : ∀ a a' d d', Good a a' d d' → Good' a a' d d') : Beside x y c c' Good' := by
  unfold Beside at hx ⊢
  split at hx <;> simp_all

theorem beside_pure {a a' : α} (h : Good a a' c c') : Beside (pure a) (pure a') c c' Good := h

theorem beside_throw {e : Error} : Beside (throw e) (throw e) c c' Good := rfl

theorem beside_fail {method : Method} {fault : ArgumentFault} :
    Beside (fail method fault) (fail method fault) c c' Good := rfl

end

/-- States that agree in all that a construction looks at: of the models, their number. -/
structure Level (c c' : Construction) : Prop where
  sources : c'.arena.sources = c.arena.sources
  generated : c'.generated = c.generated
  length : c'.arena.models.length = c.arena.models.length

/-- Both constructions have gone on and added the same models. -/
structure Follows (c c' d d' : Construction) : Prop where
  level : Level d d'
  grown : c.arena.Extends d.arena
  models : ∃ added, d.arena.models = c.arena.models ++ added ∧
    d'.arena.models = c'.arena.models ++ added

theorem Follows.refl {c c' : Construction} (h : Level c c') : Follows c c' c c' :=
  ⟨h, .refl _, [], by simp⟩

theorem Follows.trans {c c' d d' e e' : Construction} (h : Follows c c' d d')
    (h' : Follows d d' e e') : Follows c c' e e' := by
  obtain ⟨added, hd, hd'⟩ := h.models
  obtain ⟨more, he, he'⟩ := h'.models
  refine ⟨h'.level, h.grown.trans h'.grown, added ++ more, ?_, ?_⟩
  · rw [he, hd, List.append_assoc]
  · rw [he', hd', List.append_assoc]

/-- Where two chains start: the states, and the first model. -/
structure Base where
  first : Construction
  second : Construction
  model : QueryModel

/-- Both chains have come as far as `m` and `m'`. Models that have been added side by side are
alike, and if they differ at all, they are on the spine. -/
structure Advances {r r' : Registry} {passes : List Pass} (A : Accord r r' passes) (loose : Bool)
    (base : Base) (m m' : QueryModel) (c c' : Construction) : Prop where
  level : Level c c'
  like : m.Like loose m'
  items : A.fit m.select
  grown : base.first.arena.Extends c.arena
  models : ∃ added added', c.arena.models = base.first.arena.models ++ added ∧
    c'.arena.models = base.second.arena.models ++ added' ∧
    List.Forall₂ (QueryModel.Like loose) added added'
  spine : ∀ k, base.first.arena.models.length ≤ k → c'.arena.model? k ≠ c.arena.model? k →
    c.arena.Underlies m.mainFrom k
  rests : c.arena.Rests m base.model

variable {r r' : Registry} {passes : List Pass} {A : Accord r r' passes}
  {loose : Bool} {base : Base} {m m' n n' : QueryModel} {c c' d d' : Construction}

namespace Advances

theorem start (hlevel : Level c c') (hlike : m.Like loose m') (hitems : A.fit m.select) :
    Advances A loose ⟨c, c', m⟩ m m' c c' where
  level := hlevel
  like := hlike
  items := hitems
  grown := .refl _
  models := ⟨[], [], by simp⟩
  spine k hk hne := by
    have hnone : c.arena.model? k = none := List.getElem?_eq_none hk
    have hnone' : c'.arena.model? k = none := List.getElem?_eq_none (hlevel.length ▸ hk)
    exact absurd (hnone'.trans hnone.symm) hne
  rests := .inl (.refl _)

theorem follow (h : Advances A loose base m m' c c') (hf : Follows c c' d d') :
    Advances A loose base m m' d d' := by
  obtain ⟨more, hd, hd'⟩ := hf.models
  obtain ⟨added, added', hc, hc', hlike⟩ := h.models
  refine ⟨hf.level, h.like, h.items, h.grown.trans hf.grown,
    ⟨added ++ more, added' ++ more, ?_, ?_, ?_⟩, ?_, h.rests.extend hf.grown⟩
  · rw [hd, hc, List.append_assoc]
  · rw [hd', hc', List.append_assoc]
  · exact List.rel_append hlike (List.forall₂_same.mpr fun m _ => .refl m)
  · intro k hk hne
    refine (h.spine k hk fun heq => hne ?_).extend hf.grown
    simp only [Arena.model?] at heq ⊢
    rw [hd, hd', List.getElem?_append, List.getElem?_append, h.level.length, heq]

theorem change (h : Advances A loose base m m' c c') (hlike : n.Like loose n')
    (hitems : A.fit n.select) (hn : n.Retains m) : Advances A loose base n n' c c' where
  level := h.level
  like := hlike
  items := hitems
  grown := h.grown
  models := h.models
  spine k hk hne := hn.mainFrom ▸ h.spine k hk hne
  rests := h.rests.over hn

theorem addClause (h : Advances A loose base m m' c c') (clause : Clause) :
    Advances A loose base (m.addClause clause) (m'.addClause clause) c c' :=
  h.change (h.like.addClause clause) h.items (.addClause m clause)

theorem addOperator (h : Advances A loose base m m' c c') (op : ResultOperator) :
    Advances A loose base (m.addOperator op) (m'.addOperator op) c c' :=
  h.change (h.like.addOperator op) h.items ⟨rfl, fun _ hp => hp⟩

theorem setSelect (h : Advances A loose base m m' c c') {e : Expr} (he : A.fit e) :
    Advances A loose base { m with select := e } { m' with select := e } c c' :=
  h.change ⟨h.like.mainFrom, h.like.clauses, rfl, h.like.operators⟩ he ⟨rfl, fun _ hp => hp⟩

theorem addSetting (h : Advances A true base m m' c c') {op : ResultOperator}
    (hop : op.isSetting = true) : Advances A true base m (m'.addOperator op) c c' :=
  h.change (h.like.addSetting hop) h.items (.refl m)

theorem strict (h : Advances A false ⟨c, c', n⟩ m m' d d') : m = m' ∧ Follows c c' d d' := by
  obtain ⟨added, added', hd, hd', hlike⟩ := h.models
  obtain rfl : added = added' := by
    rw [← List.forall₂_eq_eq_eq]
    exact hlike.imp fun _ _ hl => hl.eq.symm
  exact ⟨h.like.eq.symm, h.level, h.grown, added, hd, hd'⟩

end Advances

/-! ### Sources and models -/

theorem addSource_follows (hlevel : Level c c') (src : QuerySource) (generated : List SourceId) :
    Follows c c' ⟨(c.arena.addSource src).2, generated⟩
      ⟨(c'.arena.addSource src).2, generated⟩ where
  level := ⟨by simp [Arena.addSource, hlevel.sources], rfl, hlevel.length⟩
  grown := c.arena.extends_addSource src
  models := ⟨[], by simp [Arena.addSource]⟩

theorem addGenerated_beside (hlevel : Level c c') (kind : SourceKind) (origin : Expr)
    (itemType : Option String) :
    Beside (addGenerated kind origin itemType) (addGenerated kind origin itemType) c c'
      fun s s' d d' => s = s' ∧ Follows c c' d d' ∧
        ∃ src, d.arena.source? s = some src ∧ src.origin = origin := by
  let src : QuerySource :=
    ⟨"<generated>_" ++ toString c.arena.sources.length, kind, origin, itemType⟩
  have hright : addGenerated kind origin itemType c' = .ok (c.arena.sources.length,
      ⟨(c'.arena.addSource src).2, c.arena.sources.length :: c.generated⟩) := by
    simp [addGenerated, Arena.addSource, hlevel.sources, hlevel.generated, src]
  unfold Beside
  rw [hright]
  have hnew : (c.arena.addSource src).2.source? c.arena.sources.length = some src := by
    simp [Arena.source?_addSource]
  exact ⟨rfl, addSource_follows hlevel src _, src, hnew, rfl⟩

theorem addNamed_beside (hlevel : Level c c') (name : String) (kind : SourceKind) (origin : Expr) :
    Beside (addNamed name kind origin) (addNamed name kind origin) c c'
      fun s s' d d' => s = s' ∧ Follows c c' d d' := by
  let src : QuerySource := ⟨name, kind, origin, rootType? origin⟩
  have hright : addNamed name kind origin c' = .ok (c.arena.sources.length,
      ⟨(c'.arena.addSource src).2, c.generated⟩) := by
    simp [addNamed, addSource, Arena.addSource, hlevel.sources, hlevel.generated, src]
  unfold Beside
  rw [hright]
  exact ⟨rfl, addSource_follows hlevel src _⟩

theorem adoptName_beside (hlevel : Level c c') (select : Expr) (name : String) :
    Beside (adoptName select name) (adoptName select name) c c' fun _ _ d d' =>
      Follows c c' d d' := by
  unfold Beside adoptName
  cases select with
  | sourceRef id =>
    simp only [hlevel.generated]
    by_cases hid : id ∈ c.generated
    · simp only [if_pos hid]
      exact ⟨⟨by simp [Arena.renameSource, hlevel.sources], rfl, hlevel.length⟩,
        c.arena.extends_renameSource id name, [], by simp [Arena.renameSource]⟩
    · simp only [if_neg hid]
      exact .refl hlevel
  | _ => exact .refl hlevel

theorem adoptParam_beside (hlevel : Level c c') (hselect : m'.select = m.select) (lambda : Lambda) :
    Beside (adoptParam m lambda) (adoptParam m' lambda) c c' fun _ _ d d' => Follows c c' d d' := by
  unfold adoptParam
  rw [hselect]
  split
  · exact beside_pure (.refl hlevel)
  · exact adoptName_beside hlevel _ _

theorem itemType?_beside (hlevel : Level c c') (select : Expr) :
    Beside (itemType? select) (itemType? select) c c'
      fun t t' d d' => t = t' ∧ d = c ∧ d' = c' := by
  unfold Beside itemType?
  cases select.strip <;> simp [Arena.source?, hlevel.sources]

end Construction

end QueryTree
