import QueryTree.Proofs.PassNodes

/-! The normal form of negations. A negation comes to rest on what it can neither be pushed into
nor cancelled by; the pass leaves no other negations, and it changes nothing where there are no
others. -/

namespace QueryTree.Normal

variable {e l r : Expr} {op : BinaryOp} {es : List Expr} {negated : Bool}

/-- What takes in a negation: a truth value, a negation, a logical operator or a comparison. -/
def takesNegation : Expr → Bool
  | .constant (.bool _) => true
  | .unary .not _ => true
  | .binary op _ _ => op.isLogical || op.isComparison
  | _ => false

/-- A node that is no negation, or one of something that does not take it in. -/
def Rests (n : Expr) : Prop := ∀ d, n = .unary .not d → takesNegation d = false

theorem rests_of_takesNegation (h : takesNegation e = false) : Rests e := by
  rintro d rfl
  cases h

theorem all_rests_not : (Expr.unary .not e).All Rests ↔ takesNegation e = false ∧ e.All Rests := by
  rw [Expr.all_iff_children]
  constructor
  · rintro ⟨hnode, hchild⟩
    exact ⟨hnode e rfl, hchild e (by simp [Expr.children])⟩
  · rintro ⟨htakes, he⟩
    refine ⟨?_, by simpa [Expr.children] using he⟩
    rintro d ⟨⟩
    exact htakes

theorem all_rests_negatedIf (h : e.All Rests) (htakes : takesNegation e = false) :
    (negatedIf negated e).All Rests := by
  cases negated with
  | false => exact h
  | true => exact all_rests_not.mpr ⟨htakes, h⟩

theorem rests_of_negatedIf (h : (negatedIf negated e).All Rests) :
    (negated = true → takesNegation e = false) ∧ e.All Rests := by
  cases negated with
  | false => exact ⟨fun hfalse => absurd hfalse Bool.false_ne_true, h⟩
  | true => exact ⟨fun _ => (all_rests_not.mp h).1, (all_rests_not.mp h).2⟩

theorem all_rests_binary (hl : l.All Rests) (hr : r.All Rests) :
    (Expr.binary op l r).All Rests := by
  rw [Expr.all_iff_children]
  refine ⟨?_, by simpa [Expr.children] using ⟨hl, hr⟩⟩
  intro d hd
  cases hd

/-! ### What is left -/

theorem negations_constant_rests (v : Value) (negated : Bool) :
    Yields (fun _ => False) (Expr.All Rests) (negations (.constant v) negated) := by
  have hconstant : ∀ v, (Expr.constant v).All Rests := by simp [Expr.All, Expr.nodes, Rests]
  cases negated with
  | false => cases v <;> exact hconstant _
  | true =>
    cases v with
    | bool b => exact hconstant _
    | _ => exact all_rests_not.mpr ⟨rfl, hconstant _⟩

theorem negations_binary_rests
    (hl : ∀ inner, Yields (fun _ => False) (Expr.All Rests) (negations l inner))
    (hr : ∀ inner, Yields (fun _ => False) (Expr.All Rests) (negations r inner)) :
    Yields (fun _ => False) (Expr.All Rests) (negations (.binary op l r) negated) := by
  have hpair : ∀ inner (f : Expr → Expr → Expr),
      (∀ l r, l.All Rests → r.All Rests → (f l r).All Rests) →
      Yields (fun _ => False) (Expr.All Rests) (do
        let l ← negations l inner
        let r ← negations r inner
        .ok (f l r)) :=
    fun inner f hf => (hl inner).bind fun l' hl' => (hr inner).bind fun r' hr' => hf l' r' hl' hr'
  simp only [negations]
  cases negated with
  | false => exact hpair false _ fun _ _ => all_rests_binary
  | true =>
    cases op with
    | and | or => exact hpair true _ fun _ _ => all_rests_binary
    | eq | ne | gt | ge | lt | le => exact hpair false _ fun _ _ => all_rests_binary
    | _ => exact hpair false _ fun _ _ hl' hr' =>
        all_rests_not.mpr ⟨rfl, all_rests_binary hl' hr'⟩

theorem Inert.takesNegation_withChildren (h : Inert e) (hlen : es.length = e.children.length) :
    takesNegation (e.withChildren es) = false := by
  cases e with
  | constant v => exact absurd rfl (h.not_constant v)
  | binary op l r => exact absurd rfl (h.not_binary op l r)
  | unary op d =>
    obtain ⟨d', rfl⟩ := List.length_eq_one_iff.mp hlen
    cases op with
    | not => exact absurd rfl (h.not_negation d)
    | _ => rfl
  | member | lambda =>
    obtain ⟨d', rfl⟩ := List.length_eq_one_iff.mp hlen
    rfl
  | conditional =>
    obtain ⟨t, a, b, rfl⟩ := List.length_eq_three.mp hlen
    rfl
  | call | invoke =>
    obtain ⟨t, args, rfl⟩ := List.exists_cons_of_length_eq_add_one hlen
    rfl
  | _ => rfl

theorem negations_rests (e : Expr) (negated : Bool) :
    Yields (fun _ => False) (Expr.All Rests) (negations e negated) := by
  induction e using byNegations generalizing negated with
  | constant v => exact negations_constant_rests v negated
  | negation d ih =>
    rw [negations]
    exact ih _
  | binary op l r ihl ihr => exact negations_binary_rests ihl ihr
  | inert e hinert ih =>
    rw [hinert.negations_eq_map]
    refine (negationsAll_yields fun c hc => ih c hc false).image fun es hes => ?_
    have hlen := hes.length_eq.symm
    have htakes := hinert.takesNegation_withChildren hlen
    refine all_rests_negatedIf ?_ htakes
    rw [Expr.all_iff_children, Expr.children_withChildren hlen]
    exact ⟨rests_of_takesNegation htakes, forall_mem_of_forall₂ hes⟩

/-! ### What stays -/

theorem negationsAll_eq_self (h : ∀ e ∈ es, negations e false = .ok e) :
    negationsAll es = .ok es := by
  induction es with
  | nil => rfl
  | cons e es ih =>
    rw [List.forall_mem_cons] at h
    rw [negationsAll, h.1, ih h.2]
    rfl

theorem negations_eq_self (h : (negatedIf negated e).All Rests) :
    negations e negated = .ok (negatedIf negated e) := by
  induction e using byNegations generalizing negated with
  | constant v =>
    cases negated with
    | false => cases v <;> rfl
    | true =>
      cases v with
      | bool b => cases (rests_of_negatedIf h).1 rfl
      | _ => rfl
  | negation d ih =>
    cases negated with
    | false =>
      rw [negations]
      exact ih h
    | true => cases (rests_of_negatedIf h).1 rfl
  | binary op l r ihl ihr =>
    obtain ⟨htakes, hall⟩ := rests_of_negatedIf h
    have hkept : (negated && op.isLogical) = false ∧ (negated && op.isComparison) = false := by
      cases negated with
      | false => exact ⟨rfl, rfl⟩
      | true => exact Bool.or_eq_false_iff.mp (htakes rfl)
    have hl : l.All Rests := hall.child (by simp [Expr.children])
    have hr : r.All Rests := hall.child (by simp [Expr.children])
    rw [negations, hkept.1, hkept.2, @ihl false hl, @ihr false hr]
    rfl
  | inert e hinert ih =>
    have hchildren : negationsAll e.children = .ok e.children :=
      negationsAll_eq_self fun c hc => ih c hc ((rests_of_negatedIf h).2.child hc)
    rw [hinert.negations_eq_map, hchildren, Except.map, Expr.withChildren_children]

/-- Pushing negations inward always succeeds and leaves only negations that rest. The expressions
with no others are exactly those that it does not change, and pushing negations inward again changes
nothing. -/
theorem negations_normalForm (e : Expr) :
    (∃ e', negations e false = .ok e' ∧ e'.All Rests ∧ negations e' false = .ok e') ∧
      (negations e false = .ok e ↔ e.All Rests) := by
  obtain ⟨e', he', hrests⟩ := (negations_rests e false).exists_ok
  refine ⟨⟨e', he', hrests, @negations_eq_self e' false hrests⟩, fun h => ?_,
    @negations_eq_self e false⟩
  obtain rfl := Except.ok.inj (he'.symm.trans h)
  exact hrests

end QueryTree.Normal
