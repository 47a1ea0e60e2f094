import QueryTree.Proofs.FreeVariables
import QueryTree.Proofs.Normalization

/-! Unfolding comes to an end. Where no variable is invoked, a substitution makes no invocation of a
lambda that was not there before; it only copies those of the replacements. An expression then has a
depth, which is computed like a value: a variable has the depth of what stands for it, and an
invocation of a lambda is one deeper than its body with the depths of the arguments for the
parameters. Unfolding an invocation takes one off the depth, and a limit that is not below the depth
is never reached. -/

namespace QueryTree

namespace Expr

variable {q : Expr → Prop} {e c : Expr} {bindings : Bindings}

/-! ### Callees -/

/-- A condition on what invocations invoke, conversions and quotes apart. -/
def Invokes (q : Expr → Prop) (n : Expr) : Prop := ∀ c args, n = .invoke c args → q c.strip

theorem all_invokes_iff :
    e.All (Invokes q) ↔ ∀ c args, .invoke c args ∈ e.nodes → q c.strip := by
  constructor
  · exact fun h c args hin => h _ hin c args rfl
  · rintro h _ hin c args rfl
    exact h c args hin

/-- A condition that no variable meets and that substitution keeps. -/
structure CalleeRule (q : Expr → Prop) : Prop where
  var : ∀ x, ¬ q (.var x)
  substitute : ∀ c bindings, q c → q (c.substitute bindings)

def NotVariable (c : Expr) : Prop := ∀ x, c ≠ .var x

/-- Neither a variable nor an invocation. -/
def Settled (c : Expr) : Prop := c.NotVariable ∧ ∀ d args, c ≠ .invoke d args

theorem notVariable_rule : CalleeRule NotVariable where
  var x h := h x rfl
  substitute c bindings h x hx := by
    cases c with
    | var y => exact h y rfl
    | lambda ps b =>
      obtain ⟨renamed, inner, heq, _⟩ := substitute_lambda ps b bindings
      rw [heq] at hx
      cases hx
    | _ => cases hx

theorem settled_rule : CalleeRule Settled where
  var x h := h.1 x rfl
  substitute c bindings h := by
    refine ⟨notVariable_rule.substitute c bindings h.1, fun d args hd => ?_⟩
    cases c with
    | var y => exact h.1 y rfl
    | invoke d args => exact h.2 d args rfl
    | lambda ps b =>
      obtain ⟨renamed, inner, heq, _⟩ := substitute_lambda ps b bindings
      rw [heq] at hd
      cases hd
    | _ => cases hd

theorem all_invokes_var (x : String) : (Expr.var x).All (Invokes q) := by
  simp [All, nodes, Invokes]

theorem Renames.all_invokes {b : Expr} {ps renamed : List String} {inner : Bindings}
    (hren : Renames bindings ps b renamed inner)
    (hb : ∀ x ∈ (lambda ps b).freeVars, ((bindings.lookup x).getD (.var x)).All (Invokes q)) :
    ∀ x ∈ b.freeVars, ((inner.lookup x).getD (.var x)).All (Invokes q) := by
  intro x hx
  by_cases hps : x ∈ ps
  · obtain ⟨y, _, hvar, _⟩ := hren.param x hps
    rw [hvar]
    exact all_invokes_var y
  · rw [hren.outer x hps]
    exact hb x (by simp [freeVars, hx, hps])

/-- Invocations get no new callees from a substitution, except with the replacements. -/
theorem CalleeRule.all_substitute (hq : CalleeRule q) (h : e.All (Invokes q))
    (hb : ∀ x ∈ e.freeVars, ((bindings.lookup x).getD (.var x)).All (Invokes q)) :
    (e.substitute bindings).All (Invokes q) := by
  induction e using byScopes generalizing bindings with
  | var x => exact hb x (by simp [freeVars])
  | lambda ps b ih =>
    obtain ⟨renamed, inner, heq, hren⟩ := substitute_lambda ps b bindings
    rw [heq, all_iff_children, children, List.forall_mem_singleton]
    refine ⟨fun c args hc => (by cases hc), ?_⟩
    exact ih (h.child (by simp [children])) (hren.all_invokes hb)
  | node e hvar hlambda ih =>
    rw [substitute_eq_mapChildren hvar hlambda, all_iff_children, children_mapChildren]
    constructor
    · intro c args hc
      cases e with
      | invoke d ds =>
        obtain ⟨rfl, rfl⟩ := invoke.inj hc
        have hd := h.node d ds rfl
        rcases strip_substitute d bindings with ⟨x, hx, _⟩ | ⟨_, hstrip⟩
        · exact absurd (hx ▸ hd) (hq.var x)
        · rw [hstrip]
          exact hq.substitute d.strip bindings hd
      | _ => cases hc
    · rw [List.forall_mem_map]
      exact fun c hc => ih c hc (h.child hc) fun x hx => hb x (freeVars_of_child hlambda hc hx)

theorem all_invokes_argument {ps : List String} {args : List Expr}
    (h : ∀ a ∈ args, a.All (Invokes q)) (x : String) :
    (((Bindings.ofPairs (ps.zip args)).lookup x).getD (.var x)).All (Invokes q) := by
  cases hl : (Bindings.ofPairs (ps.zip args)).lookup x with
  | none => exact all_invokes_var x
  | some r => exact h r (List.of_mem_zip (mem_ofPairs (mem_of_lookup hl))).2

theorem CalleeRule.all_unfolded (hq : CalleeRule q) {args : List Expr} {body : Expr}
    (hbody : Normal.unfolded? c args = some body) (h : (Expr.invoke c args).All (Invokes q)) :
    body.All (Invokes q) := by
  obtain ⟨ps, b, hb, _, rfl⟩ := eq_of_unfolded? hbody
  have hcallee : c.strip.All (Invokes q) := (h.child (by simp [children])).strip
  rw [hb] at hcallee
  exact hq.all_substitute (hcallee.child (by simp [children])) fun x _ =>
    all_invokes_argument (fun a ha => h.child (by simp [children, ha])) x

end Expr

namespace Normal

open QueryTree.Expr

/-! ### Depths -/

def deepest (depths : List Nat) : Nat := depths.foldr max 0

theorem deepest_le_iff {depths : List Nat} {n : Nat} :
    deepest depths ≤ n ↔ ∀ d ∈ depths, d ≤ n := by
  induction depths with
  | nil => simp [deepest]
  | cons d depths ih =>
    rw [List.forall_mem_cons, ← ih]
    exact Nat.max_le

/-- The depths of variables inside a lambda, whose parameters stand for arguments of given
depths. -/
def bindDepths (ps : List String) (depths : List Nat) (outer : String → Nat) : String → Nat :=
  fun x => ((ps.zip depths).reverse.lookup x).getD (outer x)

mutual

/-- How deep the unfoldings of an expression nest, given the depths of what its variables stand
for. -/
def depth : Expr → (String → Nat) → Nat
  | .var x, outer => outer x
  | .member t _, outer => depth t outer
  | .call t _ args, outer => max (depth t outer) (deepest (depthsOf args outer))
  | .staticCall _ args, outer => deepest (depthsOf args outer)
  | .unary _ e, outer => depth e outer
  | .binary _ l r, outer => max (depth l outer) (depth r outer)
  | .lambda ps b, outer => depth b (bindDepths ps (List.replicate ps.length 0) outer)
  | .conditional t a b, outer => max (depth t outer) (max (depth a outer) (depth b outer))
  | .invoke c args, outer =>
    match appliedDepth (depthsOf args outer) c outer with
    | some d => d + 1
    | none => max (depth c outer) (deepest (depthsOf args outer))
  | _, _ => 0

def depthsOf : List Expr → (String → Nat) → List Nat
  | [], _ => []
  | e :: es, outer => depth e outer :: depthsOf es outer

/-- The depth of the body of a lambda, under conversions and quotes, that is applied to as many
arguments as it has parameters. -/
def appliedDepth (args : List Nat) : Expr → (String → Nat) → Option Nat
  | .unary (.convert _) e, outer => appliedDepth args e outer
  | .unary .quote e, outer => appliedDepth args e outer
  | .lambda ps b, outer =>
    if ps.length = args.length then some (depth b (bindDepths ps args outer)) else none
  | _, _ => none

end

variable {outer outer' : String → Nat} {e e' b b' c : Expr} {ps ps' : List String} {x : String}
  {args : List Expr}

theorem depthsOf_eq_map (es : List Expr) (outer : String → Nat) :
    depthsOf es outer = es.map (depth · outer) := by
  induction es with
  | nil => rfl
  | cons e es ih => simp [depthsOf, ih]

theorem appliedDepth_eq_some {depths : List Nat} {d : Nat} :
    appliedDepth depths c outer = some d ↔ ∃ ps b, c.strip = .lambda ps b ∧
      ps.length = depths.length ∧ depth b (bindDepths ps depths outer) = d := by
  fun_induction Expr.strip c with
  | case1 _ e ih => rw [appliedDepth, ih]
  | case2 e ih => rw [appliedDepth, ih]
  | case3 e hconvert hquote =>
    cases e with
    | lambda ps b => simp [appliedDepth, and_assoc]
    | unary op e =>
      cases op with
      | convert type => exact absurd rfl (hconvert type e)
      | quote => exact absurd rfl (hquote e)
      | not | negate => simp [appliedDepth]
    | _ => simp [appliedDepth]

theorem appliedDepth_eq_none (h : unfolded? c args = none) (outer : String → Nat) :
    appliedDepth (depthsOf args outer) c outer = none := by
  rw [Option.eq_none_iff_forall_ne_some]
  intro d hd
  obtain ⟨ps, b, hb, hlen, _⟩ := appliedDepth_eq_some.mp hd
  rw [depthsOf_eq_map, List.length_map] at hlen
  simp [unfolded?, hb, hlen] at h

theorem bindDepths_of_not_mem (h : x ∉ ps) (depths : List Nat) :
    bindDepths ps depths outer x = outer x := by
  rw [bindDepths, lookup_zip_of_not_mem h, Option.getD_none]

theorem bindDepths_zero (ps : List String) (n : Nat) :
    bindDepths ps (List.replicate n 0) (fun _ => 0) = fun _ => 0 := by
  funext x
  rw [bindDepths]
  cases hl : (ps.zip (List.replicate n 0)).reverse.lookup x with
  | none => rfl
  | some d =>
    have hd := (List.of_mem_zip (List.mem_reverse.mp (mem_of_lookup hl))).2
    exact (List.mem_replicate.mp hd).2

/-- The depth of a node that is not unfolded is that of its deepest subexpression. -/
theorem depth_eq_deepest (hvar : ∀ x, e ≠ .var x) (hlambda : ∀ ps b, e ≠ .lambda ps b)
    (hnone : ∀ c args, e = .invoke c args → unfolded? c args = none) (outer : String → Nat) :
    depth e outer = deepest (e.children.map (depth · outer)) := by
  cases e with
  | var x => exact absurd rfl (hvar x)
  | lambda ps b => exact absurd rfl (hlambda ps b)
  | invoke c args =>
    rw [depth, appliedDepth_eq_none (hnone c args rfl), depthsOf_eq_map]
    rfl
  | _ => simp [depth, deepest, depthsOf_eq_map, children]

/-- An expression and another one, with depths for the variables of each, are of one depth by
themselves and, unless a variable is applied, as callees. -/
structure SameDepth (outer outer' : String → Nat) (e e' : Expr) : Prop where
  own : depth e outer = depth e' outer'
  applied : e.strip.NotVariable → ∀ args, appliedDepth args e outer = appliedDepth args e' outer'

namespace SameDepth

theorem lambda (hlen : ps'.length = ps.length)
    (hb : ∀ depths : List Nat, depths.length = ps.length →
      depth b (bindDepths ps depths outer) = depth b' (bindDepths ps' depths outer')) :
    SameDepth outer outer' (.lambda ps b) (.lambda ps' b') where
  own := by
    rw [depth, depth, hlen]
    exact hb _ List.length_replicate
  applied _ args := by
    rw [appliedDepth, appliedDepth, hlen]
    split
    next hargs => rw [hb args hargs.symm]
    next => rfl

/-- A node that neither reads nor binds variables passes on what holds of its subexpressions. -/
theorem mapChildren {f : Expr → Expr} (hvar : ∀ x, e ≠ .var x) (hlambda : ∀ ps b, e ≠ .lambda ps b)
    (hcallee : e.Invokes NotVariable)
    (h : ∀ c ∈ e.children, SameDepth outer outer' c (f c)) :
    SameDepth outer outer' e (e.mapChildren f) := by
  have hargs : ∀ args : List Expr, (∀ a ∈ args, SameDepth outer outer' a (f a)) →
      depthsOf args outer = depthsOf (args.map f) outer' := by
    intro args h
    rw [depthsOf_eq_map, depthsOf_eq_map, List.map_map]
    exact List.map_congr_left fun a ha => (h a ha).own
  cases e with
  | var x => exact absurd rfl (hvar x)
  | lambda ps b => exact absurd rfl (hlambda ps b)
  | member t m => exact ⟨(h t (by simp [children])).own, fun _ _ => rfl⟩
  | call t m args =>
    rw [children, List.forall_mem_cons] at h
    refine ⟨?_, fun _ _ => rfl⟩
    rw [Expr.mapChildren, depth, depth, h.1.own, hargs args h.2]
  | staticCall m args =>
    refine ⟨?_, fun _ _ => rfl⟩
    rw [Expr.mapChildren, depth, depth, hargs args h]
  | unary op t =>
    have ht := h t (by simp [children])
    refine ⟨ht.own, fun hstrip args => ?_⟩
    cases op with
    | convert | quote => exact ht.applied hstrip args
    | not | negate => rfl
  | binary op l r =>
    refine ⟨?_, fun _ _ => rfl⟩
    rw [Expr.mapChildren, depth, depth, (h l (by simp [children])).own,
      (h r (by simp [children])).own]
  | conditional t a b =>
    refine ⟨?_, fun _ _ => rfl⟩
    rw [Expr.mapChildren, depth, depth, (h t (by simp [children])).own,
      (h a (by simp [children])).own, (h b (by simp [children])).own]
  | invoke c args =>
    rw [children, List.forall_mem_cons] at h
    refine ⟨?_, fun _ _ => rfl⟩
    rw [Expr.mapChildren, depth, depth, h.1.applied (hcallee c args rfl), h.1.own, hargs args h.2]
  | _ => exact ⟨rfl, fun _ _ => rfl⟩

/-- Only the depths of free variables count. -/
theorem of_freeVars (hall : e.All (Invokes NotVariable))
    (h : ∀ x ∈ e.freeVars, outer x = outer' x) : SameDepth outer outer' e e := by
  induction e using byScopes generalizing outer outer' with
  | var x => exact ⟨h x (by simp [freeVars]), fun _ _ => rfl⟩
  | lambda ps b ih =>
    refine lambda rfl fun depths hlen => ?_
    refine (ih (hall.child (by simp [children])) fun x hx => ?_).own
    by_cases hps : x ∈ ps
    · obtain ⟨d, hd⟩ := lookup_zip_of_mem hlen hps
      rw [bindDepths, bindDepths, hd, Option.getD_some, Option.getD_some]
    · rw [bindDepths_of_not_mem hps, bindDepths_of_not_mem hps]
      exact h x (by simp [freeVars, hx, hps])
  | node e hvar hlambda ih =>
    have hmap := mapChildren hvar hlambda hall.node (f := id) fun c hc =>
      ih c hc (hall.child hc) fun x hx => h x (freeVars_of_child hlambda hc hx)
    rwa [mapChildren_id] at hmap

/-- Replacements that have the depths of the free variables keep the depth. -/
theorem substitute {bindings : Bindings} (hall : e.All (Invokes NotVariable))
    (hb : ∀ x ∈ e.freeVars,
      ((bindings.lookup x).getD (.var x)).All (Invokes NotVariable))
    (h : ∀ x ∈ e.freeVars, outer x = depth ((bindings.lookup x).getD (.var x)) outer') :
    SameDepth outer outer' e (e.substitute bindings) := by
  induction e using byScopes generalizing outer outer' bindings with
  | var x => exact ⟨h x (by simp [freeVars]), fun hx => absurd rfl (hx x)⟩
  | lambda ps b ih =>
    obtain ⟨renamed, inner, heq, hren⟩ := substitute_lambda ps b bindings
    rw [heq]
    refine lambda hren.length fun depths hlen => ?_
    refine (ih (hall.child (by simp [children])) (hren.all_invokes hb) fun x hx => ?_).own
    by_cases hps : x ∈ ps
    · obtain ⟨y, _, hvar, hlookup⟩ := hren.param x hps
      obtain ⟨d, hd⟩ := lookup_zip_of_mem hlen hps
      rw [hvar, depth, bindDepths, bindDepths, hlookup depths hlen, hd, Option.getD_some,
        Option.getD_some]
    · have hfree : x ∈ (Expr.lambda ps b).freeVars := by simp [freeVars, hx, hps]
      rw [hren.outer x hps, bindDepths_of_not_mem hps, h x hfree]
      refine (of_freeVars (hb x hfree) fun y hy => ?_).own
      exact (bindDepths_of_not_mem (hren.fresh x hx hps y hy) depths).symm
  | node e hvar hlambda ih =>
    rw [substitute_eq_mapChildren hvar hlambda]
    exact mapChildren hvar hlambda hall.node fun c hc =>
      ih c hc (hall.child hc) (fun x hx => hb x (freeVars_of_child hlambda hc hx)) fun x hx =>
        h x (freeVars_of_child hlambda hc hx)

end SameDepth

/-- Unfolding takes one off the depth. -/
theorem depth_of_unfolded {body : Expr} (hbody : unfolded? c args = some body)
    (hall : (Expr.invoke c args).All (Invokes NotVariable)) (outer : String → Nat) :
    depth (.invoke c args) outer = depth body outer + 1 := by
  obtain ⟨ps, b, hb, hlen, rfl⟩ := eq_of_unfolded? hbody
  have hcallee : c.strip.All (Invokes NotVariable) :=
    (hall.child (by simp [children])).strip
  rw [hb] at hcallee
  have hbodyAll : b.All (Invokes NotVariable) := hcallee.child (by simp [children])
  have happlied : appliedDepth (depthsOf args outer) c outer =
      some (depth b (bindDepths ps (depthsOf args outer) outer)) :=
    appliedDepth_eq_some.mpr ⟨ps, b, hb, by rw [hlen, depthsOf_eq_map, List.length_map], rfl⟩
  rw [depth, happlied]
  refine congrArg (· + 1) ?_
  refine (SameDepth.substitute hbodyAll (fun x _ => ?_) fun x _ => ?_).own
  · exact all_invokes_argument (fun a ha => hall.child (by simp [children, ha])) x
  · have hmap : ((ps.zip (args.map (depth · outer))).reverse.lookup x) =
        ((ps.zip args).reverse.lookup x).map (depth · outer) := by
      rw [List.zip_map_right, ← List.map_reverse]
      exact lookup_map (fun _ => (depth · outer)) _ x
    rw [lookup_ofPairs, bindDepths, depthsOf_eq_map, hmap]
    cases (ps.zip args).reverse.lookup x <;> rfl

/-! ### Termination -/

/-- The expressions that the unfolding of an expression goes on with: what an invocation unfolds to,
or the subexpressions. -/
def visits : Expr → List Expr
  | .invoke c args =>
    match unfolded? c args with
    | some body => [body]
    | none => c :: args
  | e => e.children

theorem unfolds_or_kept (e : Expr) :
    (∃ c args body, e = .invoke c args ∧ unfolded? c args = some body ∧ visits e = [body]) ∨
    (∀ c args, e = .invoke c args → unfolded? c args = none) ∧ visits e = e.children := by
  cases e with
  | invoke c args =>
    cases hbody : unfolded? c args with
    | some body => exact .inl ⟨c, args, body, rfl, hbody, by simp only [visits, hbody]⟩
    | none =>
      refine .inr ⟨?_, by simp only [visits, hbody, children]⟩
      rintro _ _ ⟨⟩
      exact hbody
  | _ => exact .inr ⟨fun c args h => (by cases h), rfl⟩

/-- No subexpression of a node that is kept lies deeper than the node. -/
theorem depth_child_le (hnone : ∀ c args, e = .invoke c args → unfolded? c args = none)
    (hc : c ∈ e.children) : depth c (fun _ => 0) ≤ depth e fun _ => 0 := by
  by_cases hlambda : ∃ ps b, e = .lambda ps b
  · obtain ⟨ps, b, rfl⟩ := hlambda
    obtain rfl : c = b := by simpa [children] using hc
    exact Nat.le_of_eq (by rw [depth, bindDepths_zero])
  · have hvar : ∀ x, e ≠ .var x := by
      rintro x rfl
      simp [children] at hc
    rw [depth_eq_deepest hvar (fun ps b hb => hlambda ⟨ps, b, hb⟩) hnone]
    exact deepest_le_iff.mp (Nat.le_refl _) _ (List.mem_map_of_mem hc)

/-- Within a limit that is not below the depth, unfolding ends with a result. -/
theorem invocations_yields {limit : Nat} (hall : e.All (Invokes NotVariable))
    (hdepth : depth e (fun _ => 0) ≤ limit) :
    Yields (fun _ => False) (fun _ => True) (invocations limit e) := by
  have hunfold : ∀ (again : Expr → Except Error Expr) (limit : Nat),
      (∀ body, body.All (Invokes NotVariable) → depth body (fun _ => 0) < limit →
        Yields (fun _ => False) (fun _ => True) (again body)) →
      ∀ e, e.All (Invokes NotVariable) → depth e (fun _ => 0) ≤ limit →
        Yields (fun _ => False) (fun _ => True) (unfoldWith again e) := by
    intro again limit hagain e
    induction e using byChildren with
    | step e ih =>
      intro hall hdepth
      rcases unfolds_or_kept e with ⟨c, args, body, rfl, hbody, _⟩ | ⟨hnone, _⟩
      · rw [unfoldWith_of_unfolded again hbody]
        rw [depth_of_unfolded hbody hall] at hdepth
        exact hagain body (notVariable_rule.all_unfolded hbody hall) hdepth
      · rw [unfoldWith_eq_map again hnone]
        have hchild : ∀ c ∈ e.children,
            Yields (fun _ => False) (fun _ => True) (unfoldWith again c) :=
          fun c hc => ih c hc (hall.child hc) (Nat.le_trans (depth_child_le hnone hc) hdepth)
        exact (unfoldAllWith_yields hchild).map _
  induction limit generalizing e with
  | zero => exact hunfold _ 0 (fun _ _ h => absurd h (Nat.not_lt_zero _)) e hall hdepth
  | succ limit ih =>
    exact hunfold _ (limit + 1) (fun _ hbody h => ih hbody (Nat.le_of_lt_succ h)) e hall hdepth

/-- An expression unfolds to another one, within some limit. -/
def Unfolds (e r : Expr) : Prop := ∃ limit, invocations limit e = .ok r

/-- Induction over an unfolding that ends: an invocation has the result of what it unfolds to, any
other node is kept over the results of its subexpressions. -/
theorem Unfolds.rec_on {motive : Expr → Expr → Prop} {r : Expr} (h : Unfolds e r)
    (unfolded : ∀ c args body r, unfolded? c args = some body → motive body r →
      motive (.invoke c args) r)
    (kept : ∀ e es, (∀ c args, e = .invoke c args → unfolded? c args = none) →
      List.Forall₂ (fun c c' => Unfolds c c' ∧ motive c c') e.children es →
      motive e (e.withChildren es)) : motive e r := by
  have hunfold : ∀ (again : Expr → Except Error Expr) (limit : Nat),
      invocations limit = unfoldWith again → (∀ body r, again body = .ok r → motive body r) →
      ∀ e r, unfoldWith again e = .ok r → motive e r := by
    intro again limit hlimit hagain e
    induction e using byChildren with
    | step e ih =>
      intro r hr
      rcases unfolds_or_kept e with ⟨c, args, body, rfl, hbody, _⟩ | ⟨hnone, _⟩
      · rw [unfoldWith_of_unfolded again hbody] at hr
        exact unfolded c args body r hbody (hagain body r hr)
      · rw [unfoldWith_eq_map again hnone, map_eq_ok] at hr
        obtain ⟨es, hes, rfl⟩ := hr
        have hchildren : List.Forall₂ (fun c c' => c ∈ e.children ∧ unfoldWith again c = .ok c')
            e.children es :=
          (List.forall₂_and_left _ _).mpr ⟨fun _ hc => hc, unfoldAllWith_forall₂ hes⟩
        refine kept e es hnone (hchildren.imp fun c c' hc => ⟨⟨limit, ?_⟩, ih c hc.1 c' hc.2⟩)
        rw [hlimit, hc.2]
  obtain ⟨limit, h⟩ := h
  induction limit generalizing e r with
  | zero => exact hunfold _ 0 rfl (fun _ _ h => by cases h) e r h
  | succ limit ih => exact hunfold _ (limit + 1) rfl (fun _ _ h => ih h) e r h

theorem Unfolds.acc_visits {r : Expr} (h : Unfolds e r) : Acc (fun d e => d ∈ visits e) e := by
  refine h.rec_on (motive := fun e _ => Acc (fun d e => d ∈ visits e) e) ?_ ?_
  · intro c args body r hbody hacc
    refine Acc.intro _ fun d hd => ?_
    simp only [visits, hbody, List.mem_singleton] at hd
    exact hd ▸ hacc
  · intro e es hnone hchildren
    refine Acc.intro e fun d hd => ?_
    rcases unfolds_or_kept e with ⟨c, args, body, rfl, hbody, _⟩ | ⟨_, hvisits⟩
    · rw [hnone c args rfl] at hbody
      cases hbody
    · rw [hvisits] at hd
      obtain ⟨_, _, _, hacc⟩ := exists_of_forall₂ hchildren hd
      exact hacc

/-! ### The result -/

/-- A callee that is no invocation unfolds to a lambda only if it is one, with the same
parameters. -/
theorem Unfolds.strip {r : Expr} (h : Unfolds c r) (hc : c.strip.Settled)
    (hr : r.strip = .lambda ps b) : ∃ b', c.strip = .lambda ps b' := by
  refine h.rec_on (motive := fun c r => c.strip.Settled → ∀ ps b, r.strip = .lambda ps b →
    ∃ b', c.strip = .lambda ps b') ?_ ?_ hc ps b hr
  · intro c args body r _ _ hc
    exact absurd rfl (hc.2 c args)
  · intro e es _ hchildren hc ps b hr
    have hlen := hchildren.length_eq.symm
    cases e with
    | var x => exact absurd rfl (hc.1 x)
    | invoke c args => exact absurd rfl (hc.2 c args)
    | lambda ps' b' =>
      obtain ⟨b'', rfl⟩ := List.length_eq_one_iff.mp hlen
      cases hr
      exact ⟨b', rfl⟩
    | unary op e =>
      obtain ⟨e', rfl⟩ := List.length_eq_one_iff.mp hlen
      obtain ⟨⟨_, he⟩, _⟩ := List.forall₂_cons.mp hchildren
      cases op with
      | convert | quote => exact he hc ps b hr
      | not | negate => cases hr
    | member t m =>
      obtain ⟨t', rfl⟩ := List.length_eq_one_iff.mp hlen
      cases hr
    | binary op l r =>
      obtain ⟨l', r', rfl⟩ := List.length_eq_two.mp hlen
      cases hr
    | conditional t a b =>
      obtain ⟨t', a', b', rfl⟩ := List.length_eq_three.mp hlen
      cases hr
    | call t m args =>
      obtain ⟨t', args', rfl⟩ := List.exists_cons_of_length_eq_add_one hlen
      cases hr
    | _ => cases hr

/-- A node that is not unfolded. -/
def Final (n : Expr) : Prop := ∀ c args, n = .invoke c args → unfolded? c args = none

theorem eq_invoke_of_withChildren {es : List Expr} (h : e.withChildren es = .invoke c args) :
    ∃ d ds, e = .invoke d ds := by
  unfold Expr.withChildren at h
  split at h <;> simp_all

/-- Where no invocation is invoked, nothing that could be unfolded is left. -/
theorem Unfolds.all_final {r : Expr} (h : Unfolds e r) (hall : e.All (Invokes Settled)) :
    r.All Final := by
  refine h.rec_on (motive := fun e r => e.All (Invokes Settled) → r.All Final) ?_ ?_ hall
  · intro c args body r hbody hr hall
    exact hr (settled_rule.all_unfolded hbody hall)
  · intro e es hnone hchildren hall
    have hlen := hchildren.length_eq.symm
    rw [all_iff_children, children_withChildren hlen]
    constructor
    · intro d ds heq
      obtain ⟨c, args, rfl⟩ := eq_invoke_of_withChildren heq
      obtain ⟨d', ds', rfl⟩ := List.exists_cons_of_length_eq_add_one hlen
      obtain ⟨rfl, rfl⟩ := invoke.inj heq
      obtain ⟨⟨hc, _⟩, hargs⟩ := List.forall₂_cons.mp hchildren
      rw [Option.eq_none_iff_forall_ne_some]
      intro body hbody
      -- the callee was a lambda of this arity already, so the invocation would not have been kept
      obtain ⟨ps, b, hd, hps, _⟩ := eq_of_unfolded? hbody
      obtain ⟨b', hb'⟩ := hc.strip (hall.node c args rfl) hd
      have hnone := hnone c args rfl
      simp [unfolded?, hb', hps, hargs.length_eq] at hnone
    · intro d hd
      obtain ⟨c, hc, _, hfinal⟩ := exists_of_forall₂ hchildren.flip hd
      exact hfinal (hall.child hc)

/-- Where no variable is invoked, unfolding ends: it visits no endless chain of expressions, and
every limit from the depth on gives one result. If no invocation is invoked either, the result
invokes no lambda with as many arguments as it has parameters. -/
theorem invocations_terminate (e : Expr)
    (h : ∀ c args, .invoke c args ∈ e.nodes → ∀ x, c.strip ≠ .var x) :
    Acc (fun d e => d ∈ visits e) e ∧
    ∃ r, (∀ limit, depth e (fun _ => 0) ≤ limit → invocations limit e = .ok r) ∧
      ((∀ c args, .invoke c args ∈ e.nodes → ∀ d ds, c.strip ≠ .invoke d ds) →
        ∀ c args, .invoke c args ∈ r.nodes → ∀ ps b, c.strip = .lambda ps b →
          ps.length ≠ args.length) := by
  have hall : e.All (Invokes NotVariable) := all_invokes_iff.mpr h
  obtain ⟨r, hr, _⟩ := (invocations_yields hall (Nat.le_refl _)).exists_ok
  have hunfolds : Unfolds e r := ⟨_, hr⟩
  refine ⟨hunfolds.acc_visits, r, fun limit hle => invocations_finishes hle e r hr, ?_⟩
  intro hinvoke c args hin ps b hc hlen
  have hsettled : e.All (Invokes Settled) :=
    all_invokes_iff.mpr fun c args hin => ⟨h c args hin, hinvoke c args hin⟩
  have hfinal : unfolded? c args = none := hunfolds.all_final hsettled _ hin c args rfl
  simp [unfolded?, hc, hlen] at hfinal

/-- An invocation whose argument, which is unfolded in its turn, is needed twice. -/
def doubled : Expr :=
  .invoke (.lambda ["x"] (.binary .add (.var "x") (.var "x")))
    [.invoke (.lambda ["y"] (.var "y")) [.constant (.int 1)]]

theorem invocations_terminate_doubled :
    ∃ r, invocations 2 doubled = .ok r ∧
      ∀ c args, .invoke c args ∈ r.nodes → ∀ ps b, c.strip = .lambda ps b →
        ps.length ≠ args.length := by
  have hcallee : ∀ c args, .invoke c args ∈ doubled.nodes → ∃ ps b, c.strip = .lambda ps b := by
    intro c args hin
    simp only [doubled, nodes, nodesOf, List.mem_cons, List.mem_append, List.append_nil,
      List.not_mem_nil, invoke.injEq, reduceCtorEq, false_or, or_false] at hin
    rcases hin with ⟨rfl, _⟩ | ⟨rfl, _⟩ <;> exact ⟨_, _, rfl⟩
  obtain ⟨_, r, hr, hfinal⟩ := invocations_terminate doubled fun c args hin x hx => by
    obtain ⟨ps, b, hb⟩ := hcallee c args hin
    rw [hb] at hx
    cases hx
  refine ⟨r, hr 2 (by decide), hfinal fun c args hin d ds hd => ?_⟩
  obtain ⟨ps, b, hb⟩ := hcallee c args hin
  rw [hb] at hd
  cases hd

end Normal

end QueryTree
