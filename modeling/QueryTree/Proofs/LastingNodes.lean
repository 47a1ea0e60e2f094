import QueryTree.Proofs.Confinement
import QueryTree.Proofs.ContextAccess
import QueryTree.Proofs.Spine

/-! Calls and reads that last. A construction cuts chains out of an expression, replaces variables
in it and runs passes over it; most nodes stay in their places while it does. What lies under such
nodes only is found again in the result, unless it may be computed: in the same expression, or in a
condition of a subquery that it refers to. -/

namespace QueryTree

/-! ### Named nodes -/

namespace Expr

/-- The method that a node calls, or the member that it reads. -/
def named? : Expr → Option (Method ⊕ Member)
  | call _ m _ => some (.inl m)
  | staticCall m _ => some (.inl m)
  | member _ m => some (.inr m)
  | staticMember m => some (.inr m)
  | _ => none

theorem named?_withChildren {e : Expr} {es : List Expr} (h : es.length = e.children.length) :
    (e.withChildren es).named? = e.named? := by
  cases e with
  | member | unary | lambda => match es, h with | [_], _ => rfl
  | binary => match es, h with | [_, _], _ => rfl
  | conditional => match es, h with | [_, _, _], _ => rfl
  | call | invoke => match es, h with | _ :: _, _ => rfl
  | _ => rfl

/-- A node that construction keeps over what becomes of its subexpressions: no operator of a chain,
no invocation, no string test and no foreign comparison. -/
def Lasting (r : Registry) : Expr → Prop
  | staticCall m args => r.kind? (.staticCall m args) = none ∧
    (args.length = 3 → m.isFormOf Method.compareString.signature = false)
  | call _ m args => args.length = 1 → Normal.isStringTest m = false
  | invoke _ _ => False
  | _ => True

instance (r : Registry) : (e : Expr) → Decidable (e.Lasting r)
  | staticCall _ _ => inferInstanceAs (Decidable (_ ∧ _))
  | call _ _ _ => inferInstanceAs (Decidable (_ → _))
  | invoke _ _ => isFalse id
  | constant _ | parameter _ | var _ | member _ _ | staticMember _ | unary _ _ | binary _ _ _
  | lambda _ _ | conditional _ _ _ | context | entityQuery _ | sourceRef _ | subQuery _ =>
    isTrue trivial

theorem lasting_rule (r : Registry) : HeadRule fun _ => Lasting r where
  constant _ _ := trivial
  unary _ _ _ := trivial
  binary _ _ _ _ := trivial
  lambda _ _ _ := trivial
  conditional _ _ _ _ := trivial
  member _ _ _ _ _ := trivial
  call _ _ _ _ _ _ hlen h hone := h (hlen.symm.trans hone)
  staticCall := by
    rintro - m args args' hlen ⟨hkind, hcompare⟩
    refine ⟨?_, fun hthree => hcompare (hlen.symm.trans hthree)⟩
    match args, args', hlen with
    | [], [], _ => rfl
    | _ :: _, _ :: _, _ => exact hkind
  invoke _ _ _ _ _ _ h := h

theorem Lasting.withChildren {r : Registry} {e : Expr} {es : List Expr} (he : e.Lasting r)
    (h : es.length = e.children.length) : (e.withChildren es).Lasting r :=
  @HeadRule.withChildren (fun _ => Lasting r) [] e (lasting_rule r) es he h

end Expr

namespace Policy

/-- A policy lists methods by signature and members by name. -/
def names (p : Policy) : Method ⊕ Member → Bool
  | .inl m => decide (m.signature ∈ p.methods)
  | .inr m => decide (m ∈ p.members)

variable {p : Policy} {e : Expr} {x : Method ⊕ Member}

theorem lists_of_named (h : e.named? = some x) : p.lists e = p.names x := by
  cases e with
  | call | staticCall | member | staticMember =>
    obtain rfl := Option.some.inj h
    rfl
  | _ => cases h

theorem allows_of_excludes (h : p.excludes e = true) : p.allows e = false := by
  cases e <;> simp [allows, h]

end Policy

/-! ### Conditions of a chain -/

/-- The body of the predicate, if the operator is `Where`. -/
def OperatorCall.condition? (call : OperatorCall) : Option Expr :=
  match call.kind, call.args with
  | .filter, [arg] =>
    match arg.strip with
    | .lambda _ body => some body
    | _ => none
  | _, _ => none

theorem OperatorCall.condition?_eq_some {call : OperatorCall} {body : Expr} :
    call.condition? = some body ↔
      call.kind = .filter ∧ ∃ arg ps, call.args = [arg] ∧ arg.strip = .lambda ps body := by
  unfold condition?
  constructor
  · intro h
    split at h
    next arg hkind hargs =>
      split at h
      next ps body' hstrip =>
        obtain rfl := Option.some.inj h
        exact ⟨hkind, arg, ps, hargs, hstrip⟩
      next => cases h
    next => cases h
  · rintro ⟨hkind, arg, ps, hargs, hstrip⟩
    simp only [hkind, hargs, hstrip]

/-- What `Where` asks of the items along a chain. -/
def Registry.conditions (r : Registry) (e : Expr) : List Expr :=
  (r.chain e).2.filterMap (·.condition?)

/-- A call of the method or a read of the member lies under lasting nodes only, or it lies so in a
condition of a chain that does. -/
inductive Expr.Demands (r : Registry) (x : Method ⊕ Member) : Expr → Prop where
  | here {e : Expr} (hnamed : e.named? = some x) (he : e.Lasting r) : Demands r x e
  | child {e c : Expr} (he : e.Lasting r) (hc : c ∈ e.children) (h : Demands r x c) : Demands r x e
  | chain {e body : Expr} (hbody : body ∈ r.conditions e) (h : Demands r x body) :
      Demands r x e

section

variable {r : Registry} {x : Method ⊕ Member} {e n body : Expr}

theorem Expr.demands_of_mem (he : e.All (Lasting r)) (hn : n ∈ e.nodes)
    (hnamed : n.named? = some x) :
    e.Demands r x := by
  induction e using byChildren with
  | step e ih =>
    rw [nodes_eq] at hn
    rcases List.mem_cons.mp hn with rfl | hn
    · exact .here hnamed he.node
    · obtain ⟨c, hc, hn⟩ := List.mem_flatMap.mp hn
      exact .child he.node hc (ih c hc (he.child hc) hn)

theorem Registry.isSome_kind?_of_mem_conditions (h : body ∈ r.conditions e) :
    (r.kind? e.strip).isSome = true := by
  obtain ⟨call, hcall, -⟩ := List.mem_filterMap.mp h
  clear h
  fun_induction Registry.chain r e with
  | case1 type e ih => exact ih hcall
  | case2 e ih => exact ih hcall
  | case3 m s args kind hkind ih => simp [Expr.strip, kind?, hkind]
  | case4 | case5 => cases hcall

/-- In the place of a chain, only its conditions are left to demand anything. -/
theorem Expr.Demands.exists_condition (h : e.Demands r x)
    (hchain : (r.kind? e.strip).isSome = true) :
    ∃ body ∈ r.conditions e, body.Demands r x := by
  induction h with
  | @here e hnamed he =>
    cases e with
    | staticCall m args =>
      have hnone : r.kind? (Expr.staticCall m args).strip = none := he.1
      simp [hnone] at hchain
    | unary => cases hnamed
    | _ => cases hchain
  | @child e c he hc _ ih =>
    cases e with
    | staticCall m args =>
      have hnone : r.kind? (Expr.staticCall m args).strip = none := he.1
      simp [hnone] at hchain
    | unary op inner =>
      obtain rfl : c = inner := List.mem_singleton.mp hc
      cases op with
      | convert | quote => exact ih hchain
      | _ => cases hchain
    | _ => cases hchain
  | chain hbody h => exact ⟨_, hbody, h⟩

/-! ### Substitution -/

/-- A chain keeps its operators; a substitution may put further ones in front of them. -/
theorem Registry.mem_chain_substitute {call : OperatorCall} (bindings : Bindings)
    (h : call ∈ (r.chain e).2) :
    call.substitute bindings ∈ (r.chain (e.substitute bindings)).2 := by
  fun_induction Registry.chain r e with
  | case1 type e ih => exact ih h
  | case2 e ih => exact ih h
  | case3 m s args kind hkind ih =>
    simp only [Expr.substitute, Expr.substituteAll, chain, hkind]
    rcases List.mem_append.mp h with h | h
    · exact List.mem_append_left _ (ih h)
    · obtain rfl := List.mem_singleton.mp h
      exact List.mem_append_right _ (by simp [OperatorCall.substitute, Expr.substituteAll_eq_map])
  | case4 | case5 => cases h

theorem Registry.exists_mem_conditions_substitute (h : body ∈ r.conditions e)
    (bindings : Bindings) :
    ∃ inner, body.substitute inner ∈ r.conditions (e.substitute bindings) := by
  obtain ⟨call, hcall, hcondition⟩ := List.mem_filterMap.mp h
  obtain ⟨hkind, arg, ps, hargs, hstrip⟩ := OperatorCall.condition?_eq_some.mp hcondition
  obtain ⟨ps', inner, hlambda, _⟩ := Expr.substitute_lambda ps body bindings
  have hstrip' : (arg.substitute bindings).strip = .lambda ps' (body.substitute inner) := by
    rcases Expr.strip_substitute arg bindings with ⟨y, hvar, -⟩ | ⟨-, heq⟩
    · rw [hstrip] at hvar
      cases hvar
    · rw [heq, hstrip, hlambda]
  refine ⟨inner, List.mem_filterMap.mpr ⟨_, mem_chain_substitute bindings hcall, ?_⟩⟩
  refine OperatorCall.condition?_eq_some.mpr ⟨hkind, arg.substitute bindings, ps', ?_, hstrip'⟩
  simp [OperatorCall.substitute, hargs]

theorem Expr.Demands.substitute (h : e.Demands r x) (bindings : Bindings) :
    (e.substitute bindings).Demands r x := by
  induction h generalizing bindings with
  | @here e hnamed he =>
    have hvar : ∀ y, e ≠ .var y := by
      rintro y rfl
      cases hnamed
    have hlambda : ∀ ps b, e ≠ .lambda ps b := by
      rintro ps b rfl
      cases hnamed
    rw [substitute_eq_mapChildren hvar hlambda, ← withChildren_map]
    have hlen : (e.children.map (·.substitute bindings)).length = e.children.length :=
      List.length_map _
    exact .here ((named?_withChildren hlen).trans hnamed) (he.withChildren hlen)
  | @child e c he hc h ih =>
    have hvar : ∀ y, e ≠ .var y := by
      rintro y rfl
      cases hc
    by_cases hlambda : ∃ ps b, e = .lambda ps b
    · obtain ⟨ps, b, rfl⟩ := hlambda
      obtain rfl : c = b := List.mem_singleton.mp hc
      obtain ⟨ps', inner, heq, _⟩ := substitute_lambda ps c bindings
      rw [heq]
      exact .child trivial List.mem_cons_self (ih inner)
    · rw [substitute_eq_mapChildren hvar fun ps b heq => hlambda ⟨ps, b, heq⟩, ← withChildren_map]
      have hlen : (e.children.map (·.substitute bindings)).length = e.children.length :=
        List.length_map _
      refine .child (he.withChildren hlen) ?_ (ih bindings)
      rw [children_withChildren hlen]
      exact List.mem_map_of_mem hc
  | chain hbody h ih =>
    obtain ⟨inner, hin⟩ := Registry.exists_mem_conditions_substitute hbody bindings
    exact .chain hin (ih inner)

end

/-! ### Conditions of models -/

/-- A call of the method or a read of the member lies under lasting nodes only, or it lies so in a
condition of a subquery that does. -/
inductive Arena.Carries (a : Arena) (r : Registry) (x : Method ⊕ Member) : Expr → Prop where
  | here {e : Expr} (hnamed : e.named? = some x) (he : e.Lasting r) : Carries a r x e
  | child {e c : Expr} (he : e.Lasting r) (hc : c ∈ e.children) (h : Carries a r x c) :
      Carries a r x e
  | subquery {j : ModelId} {m : QueryModel} {predicate : Expr} (hm : a.model? j = some m)
      (hp : a.Filtered m predicate) (h : Carries a r x predicate) : Carries a r x (.subQuery j)

namespace Arena.Carries

variable {a b : Arena} {r : Registry} {x : Method ⊕ Member} {e e' : Expr} {es : List Expr}

theorem keep (h : a.Carries r x e) (hab : a.Keeps b) : b.Carries r x e := by
  induction h with
  | here hnamed he => exact .here hnamed he
  | child he hc _ ih => exact .child he hc ih
  | subquery hm hp _ ih =>
    obtain ⟨n, hn, hretains⟩ := hab.models _ _ hm
    exact .subquery hn (hp.keep hab hretains) ih

theorem rebuild {R : Expr → Expr → Prop} (h : a.Carries r x e) (hes : List.Forall₂ R e.children es)
    (hR : ∀ c ∈ e.children, ∀ c', R c c' → a.Carries r x c → a.Carries r x c') :
    a.Carries r x (e.withChildren es) := by
  have hlen : es.length = e.children.length := hes.length_eq.symm
  cases h with
  | here hnamed he =>
    exact .here ((Expr.named?_withChildren hlen).trans hnamed) (he.withChildren hlen)
  | @child _ c he hc h =>
    obtain ⟨c', hc', hr⟩ := exists_of_forall₂ hes hc
    refine .child (he.withChildren hlen) ?_ (hR c hc c' hr h)
    rwa [Expr.children_withChildren hlen]
  | subquery hm hp h => exact .subquery hm hp h

theorem mapChildren {f : Expr → Expr} (h : a.Carries r x e)
    (hf : ∀ c ∈ e.children, a.Carries r x c → a.Carries r x (f c)) :
    a.Carries r x (e.mapChildren f) := by
  rw [← Expr.withChildren_map]
  have himage : List.Forall₂ (fun c c' => c' = f c) e.children (e.children.map f) := by
    rw [List.forall₂_map_right_iff, List.forall₂_same]
    exact fun _ _ => rfl
  apply h.rebuild himage
  rintro c hc _ rfl hcarries
  exact hf c hc hcarries

theorem exists_child (h : a.Carries r x e) (hnamed : e.named? = none) (hinner : e.children ≠ []) :
    ∃ c ∈ e.children, a.Carries r x c := by
  cases h with
  | here hsome => cases hsome.symm.trans hnamed
  | child _ hc h => exact ⟨_, hc, h⟩
  | subquery => exact absurd rfl hinner

theorem negatedIf (h : a.Carries r x e) (negated : Bool) :
    a.Carries r x (Normal.negatedIf negated e) := by
  cases negated with
  | false => exact h
  | true => exact .child trivial List.mem_cons_self h

/-! ### Passes -/

theorem comparisons (h : a.Carries r x e) : a.Carries r x (Normal.comparisons e) := by
  induction e using Expr.byChildren with
  | step e ih =>
    have hmap := h.mapChildren ih
    by_cases hcall : ∃ m args, e = .staticCall m args
    · obtain ⟨m, args, rfl⟩ := hcall
      have hforeign : args.length = 3 → m.isFormOf Method.compareString.signature = false := by
        cases h with
        | here _ he => exact he.2
        | child he _ _ => exact he.2
      rw [Normal.comparisons, Normal.comparisonsAll_eq_map]
      rcases Normal.comparisonCall_cases m (args.map Normal.comparisons) with
        ⟨left, right, flag, hargs, hm, -⟩ | heq
      · have hlen : args.length = 3 := by simpa using congrArg List.length hargs
        cases hm.symm.trans (hforeign hlen)
      · rw [heq]
        exact hmap
    · rw [Normal.comparisons_eq_mapChildren fun m args he => hcall ⟨m, args, he⟩]
      exact hmap

theorem unfoldWith {again : Expr → Except Error Expr} (h : a.Carries r x e)
    (hok : Normal.unfoldWith again e = .ok e') : a.Carries r x e' := by
  induction e using Expr.byChildren generalizing e' with
  | step e ih =>
    have hinvoke : ∀ c args, e ≠ .invoke c args := by
      rintro c args rfl
      cases h with
      | here _ he => exact he
      | child he _ _ => exact he
    rw [Normal.unfoldWith_eq_map again fun c args he => absurd he (hinvoke c args)] at hok
    cases hall : Normal.unfoldAllWith again e.children with
    | error error =>
      rw [hall] at hok
      cases hok
    | ok es =>
      rw [hall] at hok
      obtain rfl := Except.ok.inj hok
      apply h.rebuild (Normal.unfoldAllWith_forall₂ hall)
      intro c hc c' hok hcarries
      exact ih c hc hcarries hok

theorem invocations (h : a.Carries r x e) {limit : Nat}
    (hok : Normal.invocations limit e = .ok e') :
    a.Carries r x e' := by
  cases limit with
  | zero => exact h.unfoldWith hok
  | succ limit => exact h.unfoldWith hok

/-- The negation of a string test is no lasting place either, since the test is none. -/
theorem test? (h : a.Carries r x e) : Normal.test? e = none := by
  have hcall : ∀ {s m arg}, a.Carries r x (.call s m [arg]) → Normal.isStringTest m = false := by
    intro s m arg h
    cases h with
    | here _ he => exact he rfl
    | child he _ _ => exact he rfl
  unfold Normal.test?
  split
  next s m arg =>
    obtain ⟨c, hc, hcarries⟩ := h.exists_child rfl (List.cons_ne_nil _ _)
    obtain rfl : c = .call s m [arg] := List.mem_singleton.mp hc
    rw [hcall hcarries]
    rfl
  next s m arg =>
    rw [hcall h]
    rfl
  next => rfl

theorem stringTests (h : a.Carries r x e) : a.Carries r x (Normal.stringTests e) := by
  induction e using Expr.byChildren with
  | step e ih =>
    rw [Normal.stringTests_of_none h.test?]
    exact h.mapChildren ih

theorem negations (h : a.Carries r x e) {negated : Bool}
    (hok : Normal.negations e negated = .ok e') : a.Carries r x e' := by
  induction e using Normal.byNegations generalizing negated e' with
  | constant v =>
    cases h with
    | here hsome => cases hsome
    | child _ hc _ => cases hc
  | negation d ih =>
    obtain ⟨c, hc, hcarries⟩ := h.exists_child rfl (List.cons_ne_nil _ _)
    obtain rfl : c = d := List.mem_singleton.mp hc
    simp only [Normal.negations] at hok
    exact ih hcarries hok
  | binary op left right ihleft ihright =>
    obtain ⟨inner, f, hf, heq⟩ := Normal.negations_binary op negated
    rw [heq] at hok
    obtain ⟨left', hleft, hok⟩ := bind_eq_ok.mp hok
    obtain ⟨right', hright, hok⟩ := bind_eq_ok.mp hok
    obtain rfl := Except.ok.inj hok
    have hoperand : ∀ op', a.Carries r x (.binary op' left' right') := by
      intro op'
      obtain ⟨c, hc, hcarries⟩ := h.exists_child rfl (List.cons_ne_nil _ _)
      have hlr : c = left ∨ c = right := by simpa [Expr.children] using hc
      rcases hlr with rfl | rfl
      · exact .child trivial List.mem_cons_self (ihleft hcarries hleft)
      · exact .child trivial (List.mem_cons_of_mem _ List.mem_cons_self) (ihright hcarries hright)
    rcases hf with ⟨op', rfl⟩ | rfl
    · exact hoperand op'
    · exact (hoperand op).negatedIf negated
  | inert e hinert ih =>
    rw [hinert.negations_eq_map, map_eq_ok] at hok
    obtain ⟨es, hall, rfl⟩ := hok
    apply negatedIf
    apply h.rebuild (Normal.negationsAll_forall₂ hall)
    intro c hc c' hok hcarries
    exact ih c hc hcarries hok

/-- What a policy lists keeps everything around it in the query, and so do subqueries. -/
theorem allowsAll_eq_false (h : a.Carries r x e) {p : Policy} (hx : p.names x = true) :
    p.allowsAll e = false := by
  by_contra hall
  rw [Bool.not_eq_false] at hall
  induction h with
  | @here e hnamed _ =>
    have hexcludes : p.excludes e = true := by
      rw [Policy.excludes, Policy.lists_of_named hnamed, hx, Bool.true_or]
    cases (Policy.allows_of_excludes hexcludes).symm.trans (Policy.allowsAll_iff.mp hall).1
  | child _ hc _ ih => exact ih ((Policy.allowsAll_iff.mp hall).2 _ hc)
  | subquery => cases hall

theorem fold (h : a.Carries r x e) {f : Folder} (hx : f.policy.names x = true) :
    a.Carries r x (f.fold e) := by
  induction e using Expr.byChildren with
  | step e ih =>
    have hnone : f.value? e = none := by
      rw [Folder.value?, Folder.isFoldable, h.allowsAll_eq_false hx]
      simp
    rw [f.fold_eq_mapChildren hnone]
    exact h.mapChildren ih

end Arena.Carries

namespace Pass

/-- A property of expressions that the pass keeps. -/
def Keeps (pass : Pass) (P : Expr → Prop) : Prop := ∀ e e', P e → pass.run e = .ok e' → P e'

theorem runAll_keeps {passes : List Pass} {P : Expr → Prop} (h : ∀ pass ∈ passes, pass.Keeps P)
    {e e' : Expr} (he : P e) (hok : runAll passes e = .ok e') : P e' := by
  induction passes generalizing e with
  | nil =>
    obtain rfl := Except.ok.inj hok
    exact he
  | cons pass passes ih =>
    rw [List.forall_mem_cons] at h
    obtain ⟨e₁, hrun, hok⟩ := bind_eq_ok.mp hok
    exact ih h.2 (h.1 e e₁ he hrun) hok

variable (a : Arena) (r : Registry) {x : Method ⊕ Member}

theorem normalize_keeps (limit : Nat) : (normalize limit).Keeps (a.Carries r x) := by
  intro e e' he hok
  refine runAll_keeps ?_ he hok
  simp only [standard, List.forall_mem_cons]
  refine ⟨?_, ?_, ?_, ?_, by simp⟩
  · rintro e e' he ⟨⟩
    exact he.comparisons
  · intro e e' he hok
    exact he.invocations hok
  · rintro e e' he ⟨⟩
    exact he.stringTests
  · intro e e' he hok
    exact he.negations hok

theorem foldConstants_keeps {folder : Folder} (hx : folder.policy.names x = true) :
    (foldConstants folder).Keeps (a.Carries r x) := by
  rintro e e' he ⟨⟩
  exact he.fold hx

end Pass

end QueryTree
