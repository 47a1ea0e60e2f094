import QueryTree.Proofs.Confinement

/-! Variables of built queries. Every model gets a scope: the names that lambdas bind around the
place it is cut out of. If operator calls are confined wherever something is substituted later, the
variables of a model remain bound where it is referred to. -/

namespace QueryTree

open QueryTree.Expr

namespace Arena

/-- A model that is reached from the root, and the names that are bound around the references that
lead to it. -/
inductive ReachesUnder (a : Arena) (root : ModelId) : ModelId → List String → Prop where
  | start : ReachesUnder a root root []
  | step {k j : ModelId} {around bound : List String} {m : QueryModel} {e : Expr}
      (h : ReachesUnder a root k around) (hm : a.model? k = some m) (he : a.Holds m e)
      (hj : e.Occurs bound (.subQuery j)) : ReachesUnder a root j (bound ++ around)

/-- Every variable is bound by a lambda around it in its expression, or around a reference that
leads to its model. -/
def Closed (a : Arena) (root : ModelId) : Prop :=
  ∀ k around m e, a.ReachesUnder root k around → a.model? k = some m → a.Holds m e →
    ∀ bound x, e.Occurs bound (.var x) → x ∈ bound ++ around

end Arena

/-! ### Nodes -/

/-- The model needs no names but those in scope. -/
def Covers (scopes : List (List String)) (scope : List String) (j : ModelId) : Prop :=
  ∃ inner, scopes[j]? = some inner ∧ inner ⊆ scope

theorem Covers.grow {scopes scopes' : List (List String)} {scope : List String} {j : ModelId}
    (h : Covers scopes scope j) (hs : scopes <+: scopes') : Covers scopes' scope j := by
  obtain ⟨inner, hj, hin⟩ := h
  obtain ⟨added, rfl⟩ := hs
  obtain ⟨hlt, _⟩ := List.getElem?_eq_some_iff.mp hj
  exact ⟨inner, by rw [List.getElem?_append_left hlt, hj], hin⟩

theorem Covers.widen {scopes : List (List String)} {scope wider : List String} {j : ModelId}
    (h : Covers scopes scope j) (hw : scope ⊆ wider) : Covers scopes wider j := by
  obtain ⟨inner, hj, hin⟩ := h
  exact ⟨inner, hj, List.Subset.trans hin hw⟩

/-- A node that needs no names but those in scope, and that passes do not rewrite; in a quiet query
they do not unfold either. -/
structure SteadyNode (quiet : Bool) (scopes : List (List String)) (scope : List String) (n : Expr) :
    Prop where
  reference : ∀ j, n = .subQuery j → Covers scopes scope j
  canonical : n.Canonical
  invocation : quiet = true → ∀ c args, n ≠ .invoke c args

/-- The same for a node that is no operator call. -/
structure FlatNode (r : Registry) (quiet : Bool) (scopes : List (List String)) (scope : List String)
    (n : Expr) : Prop extends SteadyNode quiet scopes scope n where
  flat : r.kind? n = none

/-- A variable is in scope, and so is what a model needs. In a fixed expression the model needs no
names but those around the expression. -/
def BoundNode (r : Registry) (quiet fixed : Bool) (scopes : List (List String))
    (home scope : List String) (n : Expr) : Prop :=
  InScope scope n ∧ FlatNode r quiet scopes (if fixed then home else scope) n

section

variable {r : Registry} {quiet fixed : Bool} {scopes scopes' : List (List String)}
  {home scope wider : List String} {n e : Expr}

theorem SteadyNode.grow (h : SteadyNode quiet scopes scope n) (hs : scopes <+: scopes') :
    SteadyNode quiet scopes' scope n where
  reference j hj := (h.reference j hj).grow hs
  canonical := h.canonical
  invocation := h.invocation

theorem SteadyNode.widen (h : SteadyNode quiet scopes scope n) (hw : scope ⊆ wider) :
    SteadyNode quiet scopes wider n where
  reference j hj := (h.reference j hj).widen hw
  canonical := h.canonical
  invocation := h.invocation

theorem steadyNode_rule : PassRule (SteadyNode quiet scopes scope) where
  constant _ _ := ⟨nofun, nofun, nofun⟩
  unary _ _ _ := ⟨nofun, nofun, nofun⟩
  binary _ _ _ _ := ⟨nofun, nofun, nofun⟩
  lambda _ _ _ := ⟨nofun, nofun, nofun⟩
  conditional _ _ _ _ := ⟨nofun, nofun, nofun⟩
  member _ _ _ _ _ := ⟨nofun, nofun, nofun⟩
  call _ _ _ _ _ _ _ _ := ⟨nofun, nofun, nofun⟩
  staticCall scope m args args' hlen h :=
    ⟨nofun, canonical_rule.staticCall scope m args args' hlen h.canonical, nofun⟩
  invoke _ c _ args _ _ h :=
    ⟨nofun, nofun, fun hquiet => absurd rfl (h.invocation hquiet c args)⟩
  var _ := ⟨nofun, nofun, nofun⟩
  comparison m first second third left right mode hm h :=
    ⟨nofun, canonical_rule.comparison m first second third left right mode hm h.canonical, nofun⟩

theorem flatNode_rule : PassRule (FlatNode r quiet scopes scope) where
  constant s v := ⟨steadyNode_rule.constant s v, rfl⟩
  unary s op e := ⟨steadyNode_rule.unary s op e, rfl⟩
  binary s op left right := ⟨steadyNode_rule.binary s op left right, rfl⟩
  lambda s ps b := ⟨steadyNode_rule.lambda s ps b, rfl⟩
  conditional s t a b := ⟨steadyNode_rule.conditional s t a b, rfl⟩
  member s t t' m h := ⟨steadyNode_rule.member s t t' m h.toSteadyNode, rfl⟩
  call s t t' m args args' hlen h :=
    ⟨steadyNode_rule.call s t t' m args args' hlen h.toSteadyNode, rfl⟩
  staticCall s m args args' hlen h := by
    refine ⟨steadyNode_rule.staticCall s m args args' hlen h.toSteadyNode, ?_⟩
    have hflat := h.flat
    match args, args', hlen with
    | [], [], _ => rfl
    | _ :: _, _ :: _, _ => exact hflat
  invoke s c c' args args' hlen h :=
    ⟨steadyNode_rule.invoke s c c' args args' hlen h.toSteadyNode, rfl⟩
  var name := ⟨steadyNode_rule.var name, rfl⟩
  comparison m first second third _ _ _ hm h := by
    rw [h.canonical m first second third rfl] at hm
    cases hm

theorem boundNode_headRule : HeadRule (BoundNode r quiet fixed scopes home) :=
  inScope_rule.toHeadRule.and (.ofScopes fun _ => flatNode_rule.toHeadRule)

/-- Passes keep variables bound if models need no names that a lambda of the expression binds, and
if nothing is unfolded. -/
theorem boundNode_rewriteRule (h : fixed = true ∨ quiet = true) :
    RewriteRule (BoundNode r quiet fixed scopes home) := by
  rcases h with rfl | rfl
  · exact inScope_rule.and flatNode_rule.rewriteRule
  · apply inScope_rule.and
    exact
      { toHeadRule := .ofScopes fun _ => flatNode_rule.toHeadRule
        comparison := fun _ => flatNode_rule.comparison
        unfolding := fun _ callee args _ _ h => absurd rfl (h.node.invocation rfl callee args) }

theorem freeVars_of_boundNode (h : e.Throughout (BoundNode r quiet fixed scopes home) scope) :
    e.freeVars ⊆ scope :=
  throughout_inScope_iff.mp (h.mono fun _ _ hn => hn.1)

/-- Nodes of a fixed expression may stand in any place with the same names around it. -/
theorem all_of_boundNode (h : e.Throughout (BoundNode r quiet true scopes home) scope) :
    e.All (FlatNode r quiet scopes home) :=
  throughout_iff_all.mp (h.mono fun _ _ hn => hn.2)

theorem subQuery_boundNode {j : ModelId} (h : Covers scopes (if fixed then home else scope) j) :
    (Expr.subQuery j).Throughout (BoundNode r quiet fixed scopes home) scope := by
  rw [throughout_iff_children]
  refine ⟨⟨nofun, ⟨?_, nofun, nofun⟩, rfl⟩, by simp [children]⟩
  intro j' hj'
  obtain rfl := subQuery.inj hj'
  exact h

end

/-! ### Expressions -/

/-- An expression before its operator calls are cut out. -/
structure RawClosed (r : Registry) (strict quiet : Bool) (scopes : List (List String)) (p : Place)
    (e : Expr) : Prop where
  free : e.freeVars ⊆ p.inner ++ p.params ++ p.scope
  nodes : e.All (SteadyNode quiet scopes p.scope)
  confines : r.Confines strict e
  confined : (strict || p.selected) = true → r.Confined p.inner e

/-- An expression of a model. What is selected will be substituted into other expressions. -/
def DoneClosed (r : Registry) (strict quiet : Bool) (scopes : List (List String)) (p : Place)
    (e : Expr) : Prop :=
  e.Throughout (BoundNode r quiet (strict || p.selected) scopes p.scope) (p.inner ++ p.scope)

namespace RawClosed

variable {r : Registry} {strict quiet : Bool} {scopes scopes' : List (List String)}
  {scope : List String} {p : Place} {e : Expr}

theorem grow (h : RawClosed r strict quiet scopes p e) (hs : scopes <+: scopes') :
    RawClosed r strict quiet scopes' p e where
  free := h.free
  nodes := h.nodes.mono fun _ hn => hn.grow hs
  confines := h.confines
  confined := h.confined

theorem strip (h : RawClosed r strict quiet scopes p e) :
    RawClosed r strict quiet scopes p e.strip where
  free := by
    rw [freeVars_strip]
    exact h.free
  nodes := h.nodes.strip
  confines := All.strip h.confines
  confined hs := (h.confined hs).strip

theorem bind {selected : Bool} {ps : List String} {body : Expr} {values : List Expr}
    (h : RawClosed r strict quiet scopes ⟨scope, ps, [], selected⟩ body)
    (hlen : ps.length = values.length)
    (hv : ∀ v ∈ values, DoneClosed r strict quiet scopes (.part scope true) v) :
    RawClosed r strict quiet scopes (.part scope selected)
      (body.substitute (Bindings.ofPairs (ps.zip values))) := by
  have hfixed : ∀ v ∈ values, v.Throughout (BoundNode r quiet true scopes scope) scope := by
    intro v hin
    have hdone := hv v hin
    simpa only [DoneClosed, Place.part, Bool.or_true, List.nil_append] using hdone
  have hmem : ∀ binding ∈ Bindings.ofPairs (ps.zip values), binding.2 ∈ values :=
    fun binding hbinding => (List.of_mem_zip (mem_ofPairs hbinding)).2
  have hflat : ∀ binding ∈ Bindings.ofPairs (ps.zip values), r.Flat binding.2 := by
    intro binding hbinding
    exact (all_of_boundNode (hfixed _ (hmem binding hbinding))).mono fun _ hn => hn.flat
  constructor
  · exact freeVars_substitute_params hlen h.free fun v hin => freeVars_of_boundNode (hfixed v hin)
  · apply steadyNode_rule.all_substitute h.nodes
    intro binding hbinding
    exact (all_of_boundNode (hfixed _ (hmem binding hbinding))).mono fun _ hn => hn.toSteadyNode
  · exact h.confines.substitute hflat
  · intro hs
    exact (h.confined hs).substitute hflat (by simp [Place.part])

theorem descend (h : RawClosed r strict quiet scopes p e) (hkind : r.kind? e = none) :
    ∀ c ∈ e.children, RawClosed r strict quiet scopes (p.below e) c := by
  intro c hc
  constructor
  · intro x hx
    by_cases hbinds : x ∈ e.binds
    · simp [Place.below, hbinds]
    · have hin := h.free (mem_freeVars_of_child hc hx hbinds)
      simp only [Place.below, List.append_assoc, List.mem_append] at hin ⊢
      exact .inr hin
  · exact h.nodes.child hc
  · exact (Registry.confines_iff_children.mp h.confines).2 c hc
  · intro hs
    exact (Registry.confined_iff_children hkind).mp (h.confined hs) c hc

theorem part {op : OperatorCall} {part : OperatorPart} {selected : Bool}
    (h : RawClosed r strict quiet scopes (.part scope false) e)
    (hargs : ∀ a ∈ op.args, a ∈ e.children) (hbinds : e.binds = []) (hpart : part ∈ op.parts)
    (hconfined : (strict || selected) = true → r.Confined [] part.body) :
    RawClosed r strict quiet scopes ⟨scope, part.params, [], selected⟩ part.body := by
  constructor
  · obtain ⟨i, hi, rfl⟩ := List.mem_mapIdx.mp hpart
    have hvars : op.args[i].freeVars ⊆ scope := by
      intro x hx
      exact h.free (mem_freeVars_of_child (hargs _ (List.getElem_mem hi)) hx (by simp [hbinds]))
    rcases op.kind.part_cases i op.args[i] with heq | heq | ⟨ps, b, selected, hlambda, heq⟩
    · rw [heq]
      exact hvars
    · rw [heq]
      change op.args[i].strip.freeVars ⊆ scope
      rw [freeVars_strip]
      exact hvars
    · rw [← freeVars_strip, hlambda, ← throughout_inScope_iff] at hvars
      rw [heq]
      exact throughout_inScope_iff.mp (hvars.child (by simp [children]))
  · exact OperatorCall.parts_all (fun a ha => h.nodes.child (hargs a ha)) part hpart
  · exact OperatorCall.parts_all (fun a ha => All.child h.confines (hargs a ha)) part hpart
  · exact hconfined

/-- The parts of a chain, if what its operators select is reused or if not. -/
theorem operatorsIf (reused : Bool) (h : RawClosed r strict quiet scopes (.part scope false) e)
    (hreused : reused = true → ∀ op ∈ (r.chain e).2, ∀ part ∈ op.parts, part.selected = true →
      r.Confined [] part.body) :
    RawClosed r strict quiet scopes (.part scope false) (r.chain e).1 ∧
      ∀ earlier op later, (r.chain e).2 = earlier ++ op :: later → ∀ part ∈ op.parts,
        RawClosed r strict quiet scopes
          ⟨scope, part.params, [], part.selected && (later.any (·.applies) || reused)⟩
            part.body := by
  fun_induction Registry.chain r e generalizing reused with
  | case1 type e ih => exact ih reused (h.descend rfl e (by simp [children])) hreused
  | case2 e ih => exact ih reused (h.descend rfl e (by simp [children])) hreused
  | case3 m s args kind hkind ih =>
    let last : OperatorCall := ⟨m, kind, args⟩
    have hcall : r.call? (.staticCall m (s :: args)) = some (s, last) := by
      simp [Registry.call?, hkind, last]
    obtain ⟨hnode, hchild⟩ := Registry.confines_iff_children.mp h.confines
    obtain ⟨hstrict, hearlier⟩ := hnode s last hcall
    have hsequence : RawClosed r strict quiet scopes (.part scope false) s := by
      constructor
      · intro x hx
        exact h.free (mem_freeVars_of_child (by simp [children]) hx (by simp [binds]))
      · exact h.nodes.child (by simp [children])
      · exact hchild s (by simp [children])
      · intro hs
        exact (hstrict (by simpa [Place.part] using hs)).1
    have hreused' : (last.applies || reused) = true → ∀ op ∈ (r.chain s).2, ∀ part ∈ op.parts,
        part.selected = true → r.Confined [] part.body := by
      intro hr op hop
      rcases Bool.or_eq_true_iff.mp hr with hr | hr
      · exact hearlier hr op hop
      · exact hreused hr op (List.mem_append_left _ hop)
    obtain ⟨hroot, hcalls⟩ := ih (last.applies || reused) hsequence hreused'
    refine ⟨hroot, ?_⟩
    intro earlier op later hsplit part hpart
    replace hsplit : (r.chain s).2 ++ [last] = earlier ++ op :: later := hsplit
    -- the operator is the last one, or the last one is the last of those after it
    rcases List.eq_nil_or_concat later with rfl | ⟨later, op', rfl⟩
    · obtain ⟨_, hlast⟩ := List.append_inj' hsplit rfl
      obtain rfl : last = op := (List.cons.inj hlast).1
      apply h.part (fun a ha => List.mem_cons_of_mem s ha) rfl hpart
      intro hs
      cases strict with
      | true => exact (hstrict rfl).2 part hpart
      | false =>
        simp only [List.any_nil, Bool.false_or, Bool.and_eq_true] at hs
        exact hreused hs.2 last (by simp [last]) part hpart hs.1
    · rw [List.concat_eq_append, ← List.cons_append, ← List.append_assoc] at hsplit
      obtain ⟨hbefore, hlast⟩ := List.append_inj' hsplit rfl
      obtain rfl : last = op' := (List.cons.inj hlast).1
      have hraw := hcalls earlier op later hbefore part hpart
      simpa [List.concat_eq_append, Bool.or_assoc] using hraw
  | case4 => exact ⟨h, by simp⟩
  | case5 => exact ⟨h, by simp⟩

/-- A chain is closed over the names of its own place where these are known to stay, and otherwise
over those of the expression around it. -/
theorem chain (hp : p.params = []) (h : RawClosed r strict quiet scopes p e)
    (hkind : (r.kind? e.strip).isSome = true) :
    ∃ scope, RawClosed r strict quiet scopes (.part scope false) e ∧
      ∀ scopes' j, scopes <+: scopes' → scopes'[j]? = some scope →
        DoneClosed r strict quiet scopes' p (.subQuery j) := by
  have hvars : e.freeVars ⊆ p.inner ++ p.scope := by simpa [hp] using h.free
  by_cases hs : (strict || p.selected) = true
  · have hconfined := h.confined hs
    have hnames := (Registry.confined_of_kind hkind).mp hconfined.strip
    refine ⟨p.scope, ⟨?_, h.nodes, h.confines, fun _ => ?_⟩, ?_⟩
    · intro x hx
      rcases List.mem_append.mp (hvars hx) with hin | hin
      · rw [← freeVars_strip] at hx
        exact absurd hx (hnames x hin)
      · exact hin
    · exact hconfined.weaken (by simp [Place.part])
    · intro scopes' j _ hj
      apply subQuery_boundNode
      rw [hs, if_pos rfl]
      exact ⟨p.scope, hj, List.Subset.refl _⟩
  · refine ⟨p.inner ++ p.scope, ⟨hvars, ?_, h.confines, ?_⟩, ?_⟩
    · exact h.nodes.mono fun _ hn => hn.widen (List.subset_append_right _ _)
    · intro hstrict
      simp_all [Place.part]
    · intro scopes' j _ hj
      apply subQuery_boundNode
      rw [if_neg hs]
      exact ⟨_, hj, List.Subset.refl _⟩

theorem rebuild {es : List Expr} (hp : p.params = []) (h : RawClosed r strict quiet scopes p e)
    (hkind : r.kind? e = none) (hlen : es.length = e.children.length)
    (hes : ∀ c ∈ es, DoneClosed r strict quiet scopes (p.below e) c) :
    DoneClosed r strict quiet scopes p (e.withChildren es) := by
  apply boundNode_headRule.throughout_withChildren _ hlen
  · intro c hc
    rw [← List.append_assoc]
    exact hes c hc
  · have hnode := h.nodes.node
    refine ⟨?_, ?_, hkind⟩
    · rintro x rfl
      have hin : x ∈ p.inner ++ p.params ++ p.scope := h.free (by simp [freeVars])
      simpa [hp] using hin
    · split
      · exact hnode
      · exact hnode.widen (List.subset_append_right _ _)

end RawClosed

/-! ### Construction -/

section

variable {b : Builder} {strict quiet : Bool}

/-- The passes of a builder keep variables bound, in fixed expressions or, unless the query is
strict, in all. -/
def Builder.KeepsBound (b : Builder) (strict quiet : Bool) : Prop :=
  ∀ fixed scopes home, (strict = true → fixed = true) → ∀ scope (e : Expr),
    e.Throughout (BoundNode b.registry quiet fixed scopes home) scope →
      Yields (fun _ => True) (Expr.Throughout (BoundNode b.registry quiet fixed scopes home) scope)
        (Pass.runAll b.passes e)

/-- Confined operator calls leave variables bound. -/
def BuildRule.closed (hpasses : b.KeepsBound strict quiet) : BuildRule b where
  raw := RawClosed b.registry strict quiet
  done := DoneClosed b.registry strict quiet
  raw_grow hs h := h.grow hs
  done_grow hs h := h.mono fun _ _ hn => ⟨hn.1, hn.2.toSteadyNode.grow hs, hn.2.flat⟩
  loosen {scopes scope e} h := by
    intro bound n hn
    obtain ⟨hscope, hflat⟩ := h bound n hn
    refine ⟨hscope, ?_, hflat.flat⟩
    have hsteady : SteadyNode quiet scopes scope n := by
      simpa [Place.part] using hflat.toSteadyNode
    split
    · exact hsteady
    · exact hsteady.widen fun x hx => by simp [Place.part, hx]
  source _ _ s :=
    throughout_iff_children.mpr ⟨⟨nofun, ⟨nofun, nofun, nofun⟩, rfl⟩, by simp [children]⟩
  subquery {_ scope _} _ hj := subQuery_boundNode ⟨scope, hj, by simp [Place.part]⟩
  entity _ := throughout_iff_children.mpr ⟨⟨nofun, ⟨nofun, nofun, nofun⟩, rfl⟩, by simp [children]⟩
  strip h := h.strip
  bind h hlen hv := h.bind hlen hv
  operators h := by
    obtain ⟨hroot, hcalls⟩ := h.operatorsIf false nofun
    exact ⟨hroot, by simpa using hcalls⟩
  descend h hkind := h.descend hkind
  chain hp h hkind := h.chain hp hkind
  rebuild hp h hkind hlen hes := h.rebuild hp hkind hlen hes
  passes h := hpasses _ _ _ (fun hs => by simp [hs]) _ _ h

section

variable {hpasses : b.KeepsBound strict quiet} {st : Stage}

theorem holds_boundNode (hlaid : (BuildRule.closed hpasses).Laid st) {k : ModelId} {m : QueryModel}
    {e : Expr} {scope : List String} (hscope : st.scopes[k]? = some scope)
    (hm : st.construction.arena.model? k = some m) (he : st.construction.arena.Holds m e) :
    e.Throughout (BoundNode b.registry quiet strict st.scopes scope) scope := by
  obtain ⟨scope', hscope', hsettled⟩ := hlaid.settled hm
  obtain rfl := Option.some.inj (hscope.symm.trans hscope')
  have hdone : DoneClosed b.registry strict quiet st.scopes (.part scope false) e := by
    rcases he with hin | ⟨s, hs, src, hsrc, rfl⟩
    · exact hsettled.expressions e hin
    · obtain ⟨src', hsrc', hdone⟩ := hsettled.sources s hs
      obtain rfl := Option.some.inj (hsrc.symm.trans hsrc')
      exact hdone
  simpa [DoneClosed, Place.part] using hdone

/-- The scope of a model holds only names that are bound on the way to it. -/
theorem covers_of_reachesUnder (hlaid : (BuildRule.closed hpasses).Laid st) {root k : ModelId}
    {around : List String} (hroot : st.scopes[root]? = some [])
    (h : st.construction.arena.ReachesUnder root k around) : Covers st.scopes around k := by
  induction h with
  | start => exact ⟨[], hroot, List.Subset.refl _⟩
  | @step k j around bound m e _ hm he hj ih =>
    obtain ⟨scope, hscope, hsub⟩ := ih
    have hcovers := (holds_boundNode hlaid hscope hm he bound _ hj).2.reference j rfl
    have hwide : bound ++ scope ⊆ bound ++ around :=
      List.append_subset.mpr
        ⟨List.subset_append_left _ _, List.subset_append_of_subset_right _ hsub⟩
    split at hcovers
    · exact hcovers.widen (List.append_subset.mp hwide).2
    · exact hcovers.widen hwide

end

/-- If operator calls are confined, a query without free variables is built into a closed arena. -/
theorem Builder.build_closed (hpasses : b.KeepsBound strict quiet) {limit : Nat} {e : Expr}
    {built : BuiltQuery} (he : RawClosed b.registry strict quiet [] (.part [] false) e)
    (hbuilt : b.build limit e = .ok built) : built.arena.Closed built.root := by
  have hraw : (BuildRule.closed hpasses).raw [] (.part [] false) e := he
  obtain ⟨st, harena, hlaid, hroot⟩ := build_laid hraw hbuilt
  rw [← harena]
  intro k around m e hk hm he bound x hx
  obtain ⟨scope, hscope, hsub⟩ := covers_of_reachesUnder hlaid hroot hk
  have hin := (holds_boundNode hlaid hscope hm he bound _ hx).1 x rfl
  rcases List.mem_append.mp hin with hin | hin
  · exact List.mem_append_left _ hin
  · exact List.mem_append_right _ (hsub hin)

end

end QueryTree
