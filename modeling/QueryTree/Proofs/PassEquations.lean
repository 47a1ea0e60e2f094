import QueryTree.Normal.Pass
import QueryTree.Proofs.Nodes

/-! How the passes treat a single node. All but a few kinds of nodes are kept over their transformed
subexpressions. -/

namespace QueryTree

namespace Normal

/-! ### Comparisons -/

theorem comparisonsAll_eq_map (es : List Expr) : comparisonsAll es = es.map comparisons := by
  induction es with
  | nil => rfl
  | cons e es ih => simp [comparisonsAll, ih]

theorem comparisons_eq_mapChildren {e : Expr} (h : ∀ m args, e ≠ .staticCall m args) :
    comparisons e = e.mapChildren comparisons := by
  cases e with
  | staticCall m args => exact absurd rfl (h m args)
  | _ => simp [comparisons, Expr.mapChildren, comparisonsAll_eq_map]

/-- A call of the foreign comparison is replaced, any other is kept. -/
theorem comparisonCall_cases (m : Method) (args : List Expr) :
    (∃ left right flag, args = [left, right, flag] ∧
      m.isFormOf Method.compareString.signature = true ∧
      comparisonCall m args = canonicalComparison left right flag) ∨
    comparisonCall m args = .staticCall m args := by
  unfold comparisonCall
  split
  next left right flag =>
    split
    next hm => exact .inl ⟨left, right, flag, rfl, hm, rfl⟩
    next => exact .inr rfl
  next => exact .inr rfl

/-! ### Invocations -/

theorem unfoldWith_of_unfolded (again : Expr → Except Error Expr) {c body : Expr} {args : List Expr}
    (h : unfolded? c args = some body) : unfoldWith again (.invoke c args) = again body := by
  simp only [unfoldWith, h]

/-- A node that is not unfolded itself is kept over its subexpressions. -/
theorem unfoldWith_eq_map (again : Expr → Except Error Expr) {e : Expr}
    (h : ∀ c args, e = .invoke c args → unfolded? c args = none) :
    unfoldWith again e = (unfoldAllWith again e.children).map e.withChildren := by
  cases e with
  | member t m | unary op t | lambda ps t =>
    simp only [unfoldWith, Expr.children, unfoldAllWith]
    cases unfoldWith again t <;> rfl
  | binary op l r =>
    simp only [unfoldWith, Expr.children, unfoldAllWith]
    cases unfoldWith again l <;> cases unfoldWith again r <;> rfl
  | conditional t a b =>
    simp only [unfoldWith, Expr.children, unfoldAllWith]
    cases unfoldWith again t <;> cases unfoldWith again a <;> cases unfoldWith again b <;> rfl
  | call t m args =>
    simp only [unfoldWith, Expr.children, unfoldAllWith]
    cases unfoldWith again t <;> cases unfoldAllWith again args <;> rfl
  | staticCall m args =>
    simp only [unfoldWith, Expr.children]
    cases unfoldAllWith again args <;> rfl
  | invoke c args =>
    simp only [unfoldWith, h c args rfl, Expr.children, unfoldAllWith]
    cases unfoldWith again c <;> cases unfoldAllWith again args <;> rfl
  | _ => rfl

/-- Induction over what is unfolded: an invocation that is unfolded, and any other node. -/
theorem byUnfolding {motive : Expr → Prop}
    (unfolded : ∀ c args body, unfolded? c args = some body → motive (.invoke c args))
    (kept : ∀ e, (∀ c args, e = .invoke c args → unfolded? c args = none) →
      (∀ c ∈ e.children, motive c) → motive e) (e : Expr) : motive e := by
  induction e using Expr.byChildren with
  | step e ih =>
    by_cases hunfold : ∃ c args body, e = .invoke c args ∧ unfolded? c args = some body
    · obtain ⟨c, args, body, rfl, hbody⟩ := hunfold
      exact unfolded c args body hbody
    · refine kept e (fun c args he => ?_) ih
      rw [Option.eq_none_iff_forall_ne_some]
      exact fun body hbody => hunfold ⟨c, args, body, he, hbody⟩

theorem unfoldAllWith_forall₂ {again : Expr → Except Error Expr} {es es' : List Expr}
    (h : unfoldAllWith again es = .ok es') :
    List.Forall₂ (fun e e' => unfoldWith again e = .ok e') es es' := by
  induction es generalizing es' with
  | nil =>
    obtain rfl := Except.ok.inj h
    exact .nil
  | cons e es ih =>
    obtain ⟨e', he, h⟩ := bind_eq_ok.mp h
    obtain ⟨es', hes, h⟩ := bind_eq_ok.mp h
    obtain rfl := Except.ok.inj h
    exact .cons he (ih hes)

/-! ### String tests -/

theorem stringTestsAll_eq_map (es : List Expr) : stringTestsAll es = es.map stringTests := by
  induction es with
  | nil => rfl
  | cons e es ih => simp [stringTestsAll, ih]

/-- What a string test or its negation consists of. -/
def test? : Expr → Option (Bool × Expr × Method × Expr)
  | .unary .not (.call s m [a]) => if isStringTest m then some (true, s, m, a) else none
  | .call s m [a] => if isStringTest m then some (false, s, m, a) else none
  | _ => none

theorem eq_of_test? {e s a : Expr} {m : Method} {negated : Bool}
    (h : test? e = some (negated, s, m, a)) :
    isStringTest m = true ∧ e = negatedIf negated (.call s m [a]) := by
  unfold test? at h
  split at h
  · split at h
    next hm =>
      cases h
      exact ⟨hm, rfl⟩
    next => cases h
  · split at h
    next hm =>
      cases h
      exact ⟨hm, rfl⟩
    next => cases h
  · cases h

theorem stringTests_of_test {e s a : Expr} {m : Method} {negated : Bool}
    (h : test? e = some (negated, s, m, a)) :
    stringTests e = guardedTest negated (stringTests s) m (stringTests a) := by
  obtain ⟨hm, rfl⟩ := eq_of_test? h
  cases negated <;> simp [negatedIf, Expr.not, stringTests, hm]

theorem stringTests_of_none {e : Expr} (h : test? e = none) :
    stringTests e = e.mapChildren stringTests := by
  unfold stringTests
  split
  next s m a =>
    have hm : isStringTest m = false := by simpa [test?] using h
    simp [hm, Expr.mapChildren, stringTests, Expr.not]
  next s m a =>
    have hm : isStringTest m = false := by simpa [test?] using h
    simp [hm, Expr.mapChildren]
  all_goals simp [Expr.mapChildren, stringTestsAll_eq_map]

/-! ### Negations -/

/-- A node that a negation stays outside of, whatever is below: no constant, no negation and no
binary node. -/
structure Inert (e : Expr) : Prop where
  not_constant : ∀ v, e ≠ .constant v
  not_negation : ∀ d, e ≠ .unary .not d
  not_binary : ∀ op l r, e ≠ .binary op l r

/-- Induction over where negations go: the kinds of nodes that treat them in a way of their own, and
any other node. -/
theorem byNegations {motive : Expr → Prop} (constant : ∀ v, motive (.constant v))
    (negation : ∀ d, motive d → motive (.unary .not d))
    (binary : ∀ op l r, motive l → motive r → motive (.binary op l r))
    (inert : ∀ e, Inert e → (∀ c ∈ e.children, motive c) → motive e) (e : Expr) : motive e := by
  induction e using Expr.byChildren with
  | step e ih =>
    by_cases hconstant : ∃ v, e = .constant v
    · obtain ⟨v, rfl⟩ := hconstant
      exact constant v
    by_cases hnegation : ∃ d, e = .unary .not d
    · obtain ⟨d, rfl⟩ := hnegation
      exact negation d (ih d (by simp [Expr.children]))
    by_cases hbinary : ∃ op l r, e = .binary op l r
    · obtain ⟨op, l, r, rfl⟩ := hbinary
      exact binary op l r (ih l (by simp [Expr.children])) (ih r (by simp [Expr.children]))
    exact inert e ⟨fun v he => hconstant ⟨v, he⟩, fun d he => hnegation ⟨d, he⟩,
      fun op l r he => hbinary ⟨op, l, r, he⟩⟩ ih

/-- A binary node is inverted over subexpressions that are negated too or are not, or it is kept. -/
theorem negations_binary (op : BinaryOp) (negated : Bool) :
    ∃ inner : Bool, ∃ f : Expr → Expr → Expr,
      ((∃ op', f = .binary op') ∨ f = fun l r => negatedIf negated (.binary op l r)) ∧
      ∀ l r, negations (.binary op l r) negated = (do
        let l ← negations l inner
        let r ← negations r inner
        .ok (f l r)) := by
  simp only [negations]
  cases negated with
  | false => exact ⟨false, _, .inr rfl, fun _ _ => rfl⟩
  | true =>
    cases op with
    | and | or => exact ⟨true, _, .inl ⟨_, rfl⟩, fun _ _ => rfl⟩
    | eq | ne | gt | ge | lt | le => exact ⟨false, _, .inl ⟨_, rfl⟩, fun _ _ => rfl⟩
    | _ => exact ⟨false, _, .inr rfl, fun _ _ => rfl⟩

/-- A node that takes in no negation is kept over its subexpressions, under the negation. -/
theorem Inert.negations_eq_map {e : Expr} (h : Inert e) (negated : Bool) :
    negations e negated =
      (negationsAll e.children).map fun es => negatedIf negated (e.withChildren es) := by
  cases e with
  | constant v => exact absurd rfl (h.not_constant v)
  | binary op l r => exact absurd rfl (h.not_binary op l r)
  | unary op t =>
    cases op with
    | not => exact absurd rfl (h.not_negation t)
    | _ =>
      simp only [negations, Expr.children, negationsAll]
      cases negations t false <;> rfl
  | member t m | lambda ps t =>
    simp only [negations, Expr.children, negationsAll]
    cases negations t false <;> rfl
  | conditional t a b =>
    simp only [negations, Expr.children, negationsAll]
    cases negations t false <;> cases negations a false <;> cases negations b false <;> rfl
  | call t m args | invoke t args =>
    simp only [negations, Expr.children, negationsAll]
    cases negations t false <;> cases negationsAll args <;> rfl
  | staticCall m args =>
    simp only [negations, Expr.children]
    cases negationsAll args <;> rfl
  | _ => simp only [negations, Expr.children, negationsAll]; rfl

theorem negations_constant (v : Value) (negated : Bool) :
    negations (.constant v) negated = .ok (.constant v) ∨
    (∃ b, v = .bool b ∧ negations (.constant v) negated = .ok (.constant (.bool !b))) ∨
    negations (.constant v) negated = .ok (.unary .not (.constant v)) := by
  cases negated with
  | false => exact .inl (by simp only [negations]; rfl)
  | true =>
    cases v with
    | bool b => exact .inr (.inl ⟨b, rfl, rfl⟩)
    | _ => exact .inr (.inr rfl)

theorem negationsAll_forall₂ {es es' : List Expr} (h : negationsAll es = .ok es') :
    List.Forall₂ (fun e e' => negations e false = .ok e') es es' := by
  induction es generalizing es' with
  | nil =>
    obtain rfl := Except.ok.inj h
    exact .nil
  | cons e es ih =>
    obtain ⟨e', he, h⟩ := bind_eq_ok.mp h
    obtain ⟨es', hes, h⟩ := bind_eq_ok.mp h
    obtain rfl := Except.ok.inj h
    exact .cons he (ih hes)

end Normal

/-! ### Folding -/

namespace Folder

theorem foldAll_eq_map (f : Folder) (es : List Expr) : f.foldAll es = es.map f.fold := by
  induction es with
  | nil => rfl
  | cons e es ih => simp [foldAll, ih]

theorem value?_eq_some {f : Folder} {e : Expr} {v : Value} : f.value? e = some v ↔
    f.isFoldable e = true ∧ f.interpreter.evaluate e = .ok v := by
  unfold value?
  split
  next h =>
    rw [and_iff_right h]
    cases f.interpreter.evaluate e with
    | error error => constructor <;> rintro ⟨⟩
    | ok u =>
      constructor
      · rintro ⟨⟩
        rfl
      · rintro ⟨⟩
        rfl
  next h => simp [h]

theorem fold_of_value (f : Folder) {e : Expr} {v : Value} (h : f.value? e = some v) :
    f.fold e = .constant v := by
  cases e <;> simp only [fold, h]

theorem fold_eq_mapChildren (f : Folder) {e : Expr} (h : f.value? e = none) :
    f.fold e = e.mapChildren f.fold := by
  cases e <;> simp only [fold, h, foldAll_eq_map, Expr.mapChildren]

end Folder

end QueryTree
