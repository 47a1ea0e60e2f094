import QueryTree.Proofs.PassEquations

/-! Conditions on the nodes of an expression that no pass can break. A pass keeps most nodes and
makes only nodes of a few kinds itself; a condition that allows those holds of all nodes of the
result if it holds of all nodes of the expression. The passes do not fail either, except that
unfolding may run out of its limit. -/

namespace QueryTree

/-! ### Outcomes -/

/-- A computation ends in a value that is `Good` or in an error that is `Bad`. -/
def Yields {α : Type} (Bad : Error → Prop) (Good : α → Prop) : Except Error α → Prop
  | .ok a => Good a
  | .error e => Bad e

namespace Yields

variable {α β : Type} {Bad : Error → Prop} {Good : α → Prop} {x : Except Error α}

theorem bind {Next : β → Prop} {f : α → Except Error β} (hx : Yields Bad Good x)
    (hf : ∀ a, Good a → Yields Bad Next (f a)) : Yields Bad Next (x >>= f) := by
  cases x with
  | ok a => exact hf a hx
  | error e => exact hx

theorem mono {Good' : α → Prop} {Bad' : Error → Prop} (hx : Yields Bad Good x)
    (hg : ∀ a, Good a → Good' a) (hb : ∀ e, Bad e → Bad' e) : Yields Bad' Good' x := by
  cases x with
  | ok a => exact hg a hx
  | error e => exact hb e hx

theorem image {Good' : β → Prop} {f : α → β} (hx : Yields Bad Good x)
    (hf : ∀ a, Good a → Good' (f a)) : Yields Bad Good' (x.map f) := by
  cases x with
  | ok a => exact hf a hx
  | error e => exact hx

theorem map (hx : Yields Bad Good x) (f : α → β) : Yields Bad (fun _ => True) (x.map f) :=
  hx.image fun _ _ => trivial

theorem exists_ok (hx : Yields (fun _ => False) Good x) : ∃ a, x = .ok a ∧ Good a := by
  cases x with
  | ok a => exact ⟨a, rfl, hx⟩
  | error e => cases hx

end Yields

/-- The only error of a pass. -/
def OnlyLimit (e : Error) : Prop := e = .limitExceeded

namespace Expr

/-- A condition on nodes that also holds of what passes make of a node. -/
structure RewriteRule (p : List String → Expr → Prop) : Prop extends HeadRule p where
  /-- What replaces a call of the foreign comparison. -/
  comparison : ∀ scope m first second third left right mode,
    m.isFormOf Method.compareString.signature = true →
    p scope (.staticCall m [first, second, third]) →
    p scope (Normal.compareCall left right mode)
  /-- What replaces an invocation of a lambda. -/
  unfolding : ∀ scope callee args body, Normal.unfolded? callee args = some body →
    (Expr.invoke callee args).Throughout p scope → body.Throughout p scope

theorem RewriteRule.and {p q : List String → Expr → Prop} (hp : RewriteRule p)
    (hq : RewriteRule q) :
    RewriteRule fun scope n => p scope n ∧ q scope n where
  toHeadRule := hp.toHeadRule.and hq.toHeadRule
  comparison scope m first second third left right mode hm h :=
    ⟨hp.comparison scope m first second third left right mode hm h.1,
      hq.comparison scope m first second third left right mode hm h.2⟩
  unfolding scope callee args body hbody h := by
    rw [throughout_and] at h ⊢
    exact ⟨hp.unfolding scope callee args body hbody h.1,
      hq.unfolding scope callee args body hbody h.2⟩

/-- The same for a condition that scopes play no part in. -/
structure PassRule (p : Expr → Prop) : Prop extends NodeRule p where
  comparison : ∀ m first second third left right mode,
    m.isFormOf Method.compareString.signature = true →
    p (.staticCall m [first, second, third]) → p (Normal.compareCall left right mode)

/-- Not a call of the foreign comparison. -/
def Canonical (n : Expr) : Prop :=
  ∀ m first second third, n = .staticCall m [first, second, third] →
    m.isFormOf Method.compareString.signature = false

theorem canonical_rule : PassRule Canonical where
  constant _ _ := nofun
  unary _ _ _ := nofun
  binary _ _ _ _ := nofun
  lambda _ _ _ := nofun
  conditional _ _ _ _ := nofun
  member _ _ _ _ _ := nofun
  call _ _ _ _ _ _ _ _ := nofun
  staticCall := by
    intro _ m args args' hlen h m' first second third heq
    obtain ⟨rfl, rfl⟩ := staticCall.inj heq
    match args, hlen with
    | [first', second', third'], _ => exact h m first' second' third' rfl
  invoke _ _ _ _ _ _ _ := nofun
  var _ := nofun
  comparison m first second third left right mode hm h := by
    rw [h m first second third rfl] at hm
    cases hm

theorem eq_of_unfolded? {callee body : Expr} {args : List Expr}
    (h : Normal.unfolded? callee args = some body) :
    ∃ ps b, callee.strip = .lambda ps b ∧ ps.length = args.length ∧
      body = b.substitute (Bindings.ofPairs (ps.zip args)) := by
  unfold Normal.unfolded? at h
  split at h
  next ps b hb =>
    split at h
    next hlen => exact ⟨ps, b, hb, hlen, (Option.some.inj h).symm⟩
    next => cases h
  next => cases h

theorem PassRule.rewriteRule {p : Expr → Prop} (hp : PassRule p) : RewriteRule fun _ => p where
  toHeadRule := hp.toHeadRule
  comparison _ := hp.comparison
  unfolding := by
    intro scope callee args body hbody h
    rw [throughout_iff_all] at h ⊢
    obtain ⟨ps, b, hb, _, rfl⟩ := eq_of_unfolded? hbody
    have hcallee : callee.strip.All p := (h.child (by simp [children])).strip
    rw [hb] at hcallee
    apply hp.all_substitute (hcallee.child (by simp [children]))
    intro binding hbinding
    exact h.child (by simp [children, (List.of_mem_zip (mem_ofPairs hbinding)).2])

end Expr

open QueryTree.Expr

namespace Normal

variable {p : List String → Expr → Prop} (hp : RewriteRule p) {scope : List String} {e : Expr}

include hp

/-! ### Comparisons -/

theorem canonicalComparison_throughout {m : Method} {first second third left right flag : Expr}
    (hm : m.isFormOf Method.compareString.signature = true)
    (hcall : p scope (.staticCall m [first, second, third]))
    (hleft : left.Throughout p scope) (hright : right.Throughout p scope)
    (hflag : flag.Throughout p scope) :
    (canonicalComparison left right flag).Throughout p scope := by
  have hcompare : ∀ mode, (compareCall left right mode).Throughout p scope := by
    intro mode
    rw [throughout_iff_children]
    refine ⟨hp.comparison scope m first second third left right mode hm hcall, ?_⟩
    simpa [compareCall, children, binds] using
      ⟨hleft, hright, hp.throughout_constant mode.toValue⟩
  unfold canonicalComparison
  split
  · exact hcompare _
  · exact hcompare _
  · rw [throughout_iff_children]
    refine ⟨hp.conditional _ _ _ _, ?_⟩
    simpa [children, binds] using ⟨hflag, hcompare _, hcompare _⟩

theorem comparisons_throughout (h : e.Throughout p scope) :
    (comparisons e).Throughout p scope := by
  induction e using Expr.byChildren generalizing scope with
  | step e ih =>
    have hmap : (e.mapChildren comparisons).Throughout p scope :=
      hp.throughout_mapChildren h fun c hc hall => ih c hc hall
    by_cases hcall : ∃ m args, e = .staticCall m args
    · obtain ⟨m, args, rfl⟩ := hcall
      rw [comparisons, comparisonsAll_eq_map]
      rcases comparisonCall_cases m (args.map comparisons) with ⟨l, r, f, hargs, hm, heq⟩ | heq
      · rw [heq]
        have hhead : p scope (.staticCall m (args.map comparisons)) := hmap.node
        have harg : ∀ a ∈ args.map comparisons, a.Throughout p scope := fun a ha => hmap.child ha
        rw [hargs] at hhead harg
        exact canonicalComparison_throughout hp hm hhead (harg l (by simp)) (harg r (by simp))
          (harg f (by simp))
      · rw [heq]
        exact hmap
    · rw [comparisons_eq_mapChildren fun m args he => hcall ⟨m, args, he⟩]
      exact hmap

omit hp in
theorem canonicalComparison_canonical {left right flag : Expr} (hleft : left.All Canonical)
    (hright : right.All Canonical) (hflag : flag.All Canonical) :
    (canonicalComparison left right flag).All Canonical := by
  have hcompare : ∀ mode, (compareCall left right mode).All Canonical := by
    intro mode
    rw [all_iff_children]
    constructor
    · rintro m first second third ⟨⟩
      decide
    · have hmode : (Expr.constant mode.toValue).All Canonical := by simp [All, nodes, Canonical]
      simpa [compareCall, children] using ⟨hleft, hright, hmode⟩
  unfold canonicalComparison
  split
  · exact hcompare _
  · exact hcompare _
  · rw [all_iff_children]
    constructor
    · intro m first second third he
      cases he
    · simpa [children] using ⟨hflag, hcompare _, hcompare _⟩

omit hp in
theorem comparisons_canonical (e : Expr) : (comparisons e).All Canonical := by
  induction e using Expr.byChildren with
  | step e ih =>
    by_cases hcall : ∃ m args, e = .staticCall m args
    · obtain ⟨m, args, rfl⟩ := hcall
      have hargs : ∀ a ∈ args.map comparisons, a.All Canonical := List.forall_mem_map.mpr ih
      rw [comparisons, comparisonsAll_eq_map]
      unfold comparisonCall
      split
      next left right flag heq =>
        simp only [heq, List.forall_mem_cons] at hargs
        obtain ⟨hleft, hright, hflag, _⟩ := hargs
        split
        · exact canonicalComparison_canonical hleft hright hflag
        next hm =>
          rw [all_iff_children]
          constructor
          · rintro m first second third ⟨⟩
            exact Bool.eq_false_iff.mpr hm
          · simpa [children] using ⟨hleft, hright, hflag⟩
      next hne =>
        rw [all_iff_children]
        constructor
        · intro m' first second third heq
          exact absurd (staticCall.inj heq).2 (hne first second third)
        · exact hargs
    · rw [comparisons_eq_mapChildren fun m args he => hcall ⟨m, args, he⟩, all_iff_children,
        children_mapChildren]
      refine ⟨?_, List.forall_mem_map.mpr ih⟩
      cases e with
      | staticCall m args => exact absurd ⟨m, args, rfl⟩ hcall
      | _ =>
        intro m first second third he
        cases he

/-! ### Invocations -/

omit hp in
theorem unfoldAllWith_yields {again : Expr → Except Error Expr} {Bad : Error → Prop}
    {R : Expr → Expr → Prop} {es : List Expr}
    (h : ∀ e ∈ es, Yields Bad (R e) (unfoldWith again e)) :
    Yields Bad (List.Forall₂ R es) (unfoldAllWith again es) := by
  induction es with
  | nil => exact .nil
  | cons e es ih =>
    rw [List.forall_mem_cons] at h
    exact h.1.bind fun e' he' => (ih h.2).bind fun es' hes' => .cons he' hes'

theorem unfoldWith_throughout (again : Expr → Except Error Expr)
    (hagain : ∀ scope (e : Expr), e.Throughout p scope →
      Yields OnlyLimit (Expr.Throughout p scope) (again e)) (h : e.Throughout p scope) :
    Yields OnlyLimit (Expr.Throughout p scope) (unfoldWith again e) := by
  induction e using byUnfolding generalizing scope with
  | unfolded c args body hbody =>
    rw [unfoldWith_of_unfolded again hbody]
    exact hagain scope body (hp.unfolding scope c args body hbody h)
  | kept e hnone ih =>
    rw [unfoldWith_eq_map again hnone]
    apply (unfoldAllWith_yields fun c hc => ih c hc (h.child hc)).image
    intro es hes
    exact hp.throughout_withChildren h.node hes.length_eq.symm (forall_mem_of_forall₂ hes)

theorem invocations_throughout (limit : Nat) (h : e.Throughout p scope) :
    Yields OnlyLimit (Expr.Throughout p scope) (invocations limit e) := by
  induction limit generalizing scope e with
  | zero =>
    exact unfoldWith_throughout hp (fun _ => .error .limitExceeded) (fun _ _ _ => rfl) h
  | succ limit ih => exact unfoldWith_throughout hp (invocations limit) (fun _ _ he => ih he) h

/-! ### String tests -/

theorem guardedTest_throughout {negated : Bool} {subject argument : Expr} {m : Method}
    (hcall : (Expr.call subject m [argument]).Throughout p scope) :
    (guardedTest negated subject m argument).Throughout p scope := by
  have hs : subject.Throughout p scope := hcall.child (by simp [children])
  have ha : argument.Throughout p scope := hcall.child (by simp [children])
  have hconstant : ∀ v, (Expr.constant v).Throughout p scope := hp.throughout_constant
  unfold guardedTest
  split
  · exact hconstant _
  · have htail : (testTail negated (.call subject m [argument]) argument).Throughout p scope := by
      unfold testTail
      split
      · exact hcall
      · exact hp.throughout_binary hcall (hp.throughout_binary ha (hconstant _))
      · exact hp.throughout_unary hcall
      · exact hp.throughout_binary (hp.throughout_unary hcall)
          (hp.throughout_binary ha (hconstant _))
    exact hp.throughout_binary (hp.throughout_binary (hp.throughout_binary hs (hconstant _))
      (hp.throughout_binary ha (hconstant _))) htail

theorem stringTests_throughout (h : e.Throughout p scope) :
    (stringTests e).Throughout p scope := by
  induction e using Expr.byGrandchildren generalizing scope with
  | step e ih =>
    cases htest : test? e with
    | none =>
      rw [stringTests_of_none htest]
      exact hp.throughout_mapChildren h fun c hc hall => (ih c hc).1 hall
    | some test =>
      obtain ⟨negated, s, m, a⟩ := test
      obtain ⟨hm, rfl⟩ := eq_of_test? htest
      rw [stringTests_of_test htest]
      apply guardedTest_throughout hp
      -- a negated test is rewritten as a whole, so its operands are two levels down
      have hcall : (Expr.call s m [a]).Throughout p scope ∧
          ∀ c ∈ (Expr.call s m [a]).children, c.Throughout p scope →
            (stringTests c).Throughout p scope := by
        cases negated with
        | false => exact ⟨h, fun c hc hall => (ih c hc).1 hall⟩
        | true =>
          have hin : Expr.call s m [a] ∈ (negatedIf true (.call s m [a])).children := by
            simp [negatedIf, Expr.not, children]
          exact ⟨h.child hin, fun c hc hall => (ih _ hin).2 c hc hall⟩
      exact hp.throughout_mapChildren hcall.1 hcall.2

/-! ### Negations -/

theorem negatedIf_throughout {negated : Bool} (h : e.Throughout p scope) :
    (negatedIf negated e).Throughout p scope := by
  cases negated with
  | false => exact h
  | true => exact hp.throughout_unary h

omit hp in
theorem negationsAll_yields {Bad : Error → Prop} {R : Expr → Expr → Prop} {es : List Expr}
    (h : ∀ e ∈ es, Yields Bad (R e) (negations e false)) :
    Yields Bad (List.Forall₂ R es) (negationsAll es) := by
  induction es with
  | nil => exact .nil
  | cons e es ih =>
    rw [List.forall_mem_cons] at h
    exact h.1.bind fun e' he' => (ih h.2).bind fun es' hes' => .cons he' hes'

theorem negations_throughout (negated : Bool) (h : e.Throughout p scope) :
    Yields OnlyLimit (Expr.Throughout p scope) (negations e negated) := by
  induction e using byNegations generalizing negated scope with
  | constant v =>
    rcases negations_constant v negated with heq | ⟨b, _, heq⟩ | heq
    · rw [heq]
      exact h
    · rw [heq]
      exact hp.throughout_constant _
    · rw [heq]
      exact hp.throughout_unary h
  | negation d ih =>
    rw [negations]
    exact ih _ (h.child (by simp [children]))
  | binary op l r ihl ihr =>
    obtain ⟨inner, f, hf, heq⟩ := negations_binary op negated
    rw [heq]
    apply (ihl inner (h.child (by simp [children]))).bind
    intro l' hl'
    apply (ihr inner (h.child (by simp [children]))).bind
    intro r' hr'
    rcases hf with ⟨op', rfl⟩ | rfl
    · exact hp.throughout_binary hl' hr'
    · exact negatedIf_throughout hp (hp.throughout_binary hl' hr')
  | inert e hinert ih =>
    rw [hinert.negations_eq_map]
    apply (negationsAll_yields fun c hc => ih c hc false (h.child hc)).image
    intro es hes
    apply negatedIf_throughout hp
    exact hp.throughout_withChildren h.node hes.length_eq.symm (forall_mem_of_forall₂ hes)

end Normal

/-! ### Folding and pipelines -/

theorem Folder.fold_throughout {p : List String → Expr → Prop} (hp : HeadRule p) (f : Folder)
    {scope : List String} {e : Expr} (h : e.Throughout p scope) :
    (f.fold e).Throughout p scope := by
  induction e using Expr.byChildren generalizing scope with
  | step e ih =>
    cases hv : f.value? e with
    | some v =>
      rw [fold_of_value f hv]
      exact hp.throughout_constant v
    | none =>
      rw [fold_eq_mapChildren f hv]
      exact hp.throughout_mapChildren h fun c hc hall => ih c hc hall

namespace Pass

/-- A pass that keeps every condition on nodes that obeys the rule, and fails at most for its
limit. -/
def KeepsNodes (pass : Pass) : Prop :=
  ∀ p, RewriteRule p → ∀ scope (e : Expr), e.Throughout p scope →
    Yields OnlyLimit (Expr.Throughout p scope) (pass.run e)

theorem runAll_throughout {p : List String → Expr → Prop} (hp : RewriteRule p)
    {passes : List Pass} (h : ∀ pass ∈ passes, pass.KeepsNodes) {scope : List String} {e : Expr}
    (he : e.Throughout p scope) :
    Yields OnlyLimit (Expr.Throughout p scope) (runAll passes e) := by
  induction passes generalizing e with
  | nil => exact he
  | cons pass passes ih =>
    rw [List.forall_mem_cons] at h
    apply (h.1 p hp scope e he).bind
    intro e' he'
    exact ih h.2 he'

theorem KeepsNodes.all {pass : Pass} (h : pass.KeepsNodes) {p : Expr → Prop} (hp : PassRule p)
    {e : Expr} (he : e.All p) : Yields OnlyLimit (Expr.All p) (pass.run e) := by
  have hrun := h _ hp.rewriteRule [] e (throughout_iff_all.mpr he)
  exact hrun.mono (fun _ => throughout_iff_all.mp) fun _ herror => herror

theorem runAll_all {p : Expr → Prop} (hp : PassRule p) {passes : List Pass}
    (h : ∀ pass ∈ passes, pass.KeepsNodes) {e : Expr} (he : e.All p) :
    Yields OnlyLimit (Expr.All p) (runAll passes e) := by
  have hall : e.Throughout (fun _ => p) [] := throughout_iff_all.mpr he
  exact (runAll_throughout hp.rewriteRule h hall).mono (fun _ => throughout_iff_all.mp)
    fun _ herror => herror

theorem foldConstants_keepsNodes (folder : Folder) : (foldConstants folder).KeepsNodes :=
  fun _ hp _ _ h => folder.fold_throughout hp.toHeadRule h

theorem standard_keepsNodes (limit : Nat) : ∀ pass ∈ standard limit, pass.KeepsNodes := by
  simp only [standard, List.forall_mem_cons, List.not_mem_nil, false_implies,
    implies_true, and_true]
  exact ⟨fun _ hp _ _ h => Normal.comparisons_throughout hp h,
    fun _ hp _ _ h => Normal.invocations_throughout hp limit h,
    fun _ hp _ _ h => Normal.stringTests_throughout hp h,
    fun _ hp _ _ h => Normal.negations_throughout hp false h⟩

theorem normalize_keepsNodes (limit : Nat) : (normalize limit).KeepsNodes :=
  fun _ hp _ _ h => runAll_throughout hp (standard_keepsNodes limit) h

end Pass

end QueryTree
