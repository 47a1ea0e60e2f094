import Mathlib.Data.List.Basic
import QueryTree.Proofs.PassEquations

/-! Replacement of captured records. The records among the constants of an expression may be
replaced before or after it is brought into normal form: no pass looks into them. -/

namespace QueryTree

/-- What a record holds: its type and its fields. -/
abbrev Record := String × List (String × Value)

/-- Replaces a record; other values are kept. -/
def Value.mapRecord (f : Record → Record) : Value → Value
  | record type fields => record (f (type, fields)).1 (f (type, fields)).2
  | v => v

theorem Value.mapRecord_of_not {f : Record → Record} {v : Value} (h : v.isRecord = false) :
    v.mapRecord f = v := by
  cases v with
  | record type fields => cases h
  | _ => rfl

theorem Value.isRecord_mapRecord (f : Record → Record) (v : Value) :
    (v.mapRecord f).isRecord = v.isRecord := by
  cases v <;> rfl

namespace Expr

mutual

/-- Replaces the records among the constants. -/
def mapRecords (f : Record → Record) : Expr → Expr
  | constant v => constant (v.mapRecord f)
  | member t m => member (mapRecords f t) m
  | call t m args => call (mapRecords f t) m (mapRecordsAll f args)
  | staticCall m args => staticCall m (mapRecordsAll f args)
  | unary op e => unary op (mapRecords f e)
  | binary op l r => binary op (mapRecords f l) (mapRecords f r)
  | lambda ps b => lambda ps (mapRecords f b)
  | conditional t a b => conditional (mapRecords f t) (mapRecords f a) (mapRecords f b)
  | invoke c args => invoke (mapRecords f c) (mapRecordsAll f args)
  | e => e

def mapRecordsAll (f : Record → Record) : List Expr → List Expr
  | [] => []
  | e :: es => mapRecords f e :: mapRecordsAll f es

end

variable {f : Record → Record}

theorem mapRecordsAll_eq_map (es : List Expr) : mapRecordsAll f es = es.map (mapRecords f) := by
  induction es with
  | nil => rfl
  | cons e es ih => exact congrArg (mapRecords f e :: ·) ih

theorem mapRecords_lambda (ps : List String) (b : Expr) :
    (lambda ps b).mapRecords f = lambda ps (b.mapRecords f) := rfl

theorem mapRecords_call (t : Expr) (m : Method) (args : List Expr) :
    (call t m args).mapRecords f = call (t.mapRecords f) m (args.map (mapRecords f)) :=
  congrArg (call _ m) (mapRecordsAll_eq_map args)

theorem mapRecords_staticCall (m : Method) (args : List Expr) :
    (staticCall m args).mapRecords f = staticCall m (args.map (mapRecords f)) :=
  congrArg (staticCall m) (mapRecordsAll_eq_map args)

theorem mapRecords_invoke (c : Expr) (args : List Expr) :
    (invoke c args).mapRecords f = invoke (c.mapRecords f) (args.map (mapRecords f)) :=
  congrArg (invoke _) (mapRecordsAll_eq_map args)

theorem mapRecords_eq_mapChildren {e : Expr} (h : ∀ v, e ≠ constant v) :
    e.mapRecords f = e.mapChildren (mapRecords f) := by
  cases e with
  | constant v => exact absurd rfl (h v)
  | call t m args => exact mapRecords_call t m args
  | staticCall m args => exact mapRecords_staticCall m args
  | invoke c args => exact mapRecords_invoke c args
  | _ => rfl

theorem children_mapRecords (e : Expr) :
    (e.mapRecords f).children = e.children.map (mapRecords f) := by
  cases e with
  | call t m args =>
    rw [mapRecords_call]
    rfl
  | staticCall m args =>
    rw [mapRecords_staticCall]
    rfl
  | invoke c args =>
    rw [mapRecords_invoke]
    rfl
  | _ => rfl

theorem mapRecords_withChildren (e : Expr) (es : List Expr) :
    (e.withChildren es).mapRecords f = (e.mapRecords f).withChildren (es.map (mapRecords f)) := by
  cases e with
  | member | unary | lambda | binary | conditional =>
    rcases es with _ | ⟨_, _ | ⟨_, _ | ⟨_, _ | _⟩⟩⟩ <;> rfl
  | call t m args =>
    cases es with
    | nil => rfl
    | cons c cs => simp only [withChildren, mapRecords_call, List.map_cons]
  | invoke t args =>
    cases es with
    | nil => rfl
    | cons c cs => simp only [withChildren, mapRecords_invoke, List.map_cons]
  | staticCall m args => simp only [withChildren, mapRecords_staticCall]
  | _ => rfl

/-- A transformation of subexpressions that does not look into records. -/
theorem mapRecords_mapChildren {e : Expr} {g : Expr → Expr}
    (hg : ∀ c ∈ e.children, g (c.mapRecords f) = (g c).mapRecords f) :
    (e.mapRecords f).mapChildren g = (e.mapChildren g).mapRecords f := by
  have hmap : (e.children.map (mapRecords f)).map g = (e.children.map g).map (mapRecords f) := by
    rw [List.map_map, List.map_map]
    exact List.map_congr_left hg
  rw [← withChildren_map, ← withChildren_map, mapRecords_withChildren, children_mapRecords, hmap]

theorem nodes_mapRecords (e : Expr) : (e.mapRecords f).nodes = e.nodes.map (mapRecords f) := by
  induction e using byChildren with
  | step e ih =>
    rw [nodes_eq e, nodes_eq (e.mapRecords f), children_mapRecords, List.map_cons, List.map_flatMap,
      List.flatMap_map]
    congr 1
    apply List.flatMap_congr
    intro c hc
    exact ih c hc

theorem mapRecords_comp (f g : Record → Record) (e : Expr) :
    (e.mapRecords f).mapRecords g = e.mapRecords (g ∘ f) := by
  induction e using byChildren with
  | step e ih =>
    by_cases hconstant : ∃ v, e = constant v
    · obtain ⟨v, rfl⟩ := hconstant
      cases v <;> rfl
    · have hne : ∀ v, e ≠ constant v := fun v he => hconstant ⟨v, he⟩
      have hchildren : (e.children.map (mapRecords f)).map (mapRecords g) =
          e.children.map (mapRecords (g ∘ f)) := by
        rw [List.map_map]
        exact List.map_congr_left ih
      rw [mapRecords_eq_mapChildren hne, mapRecords_eq_mapChildren hne, ← withChildren_map,
        mapRecords_withChildren, mapRecords_eq_mapChildren hne, ← withChildren_map,
        withChildren_withChildren (List.length_map _) (by simp), hchildren, withChildren_map]

theorem mapRecords_id (e : Expr) : e.mapRecords id = e := by
  induction e using byChildren with
  | step e ih =>
    by_cases hconstant : ∃ v, e = constant v
    · obtain ⟨v, rfl⟩ := hconstant
      cases v <;> rfl
    · have hchildren : e.children.map (mapRecords id) = e.children := by
        rw [List.map_congr_left ih, List.map_id']
      rw [mapRecords_eq_mapChildren fun v he => hconstant ⟨v, he⟩, ← withChildren_map, hchildren,
        withChildren_children]

/-- Different expressions stay different if different records do. -/
theorem mapRecords_injective (hf : Function.Injective f) : Function.Injective (mapRecords f) := by
  obtain ⟨g, hg⟩ := hf.hasLeftInverse
  apply Function.LeftInverse.injective (g := mapRecords g)
  intro e
  rw [mapRecords_comp, hg.comp_eq_id, mapRecords_id]

theorem freeVars_mapRecords (e : Expr) : (e.mapRecords f).freeVars = e.freeVars := by
  induction e using byChildren with
  | step e ih =>
    have hall : ∀ es : List Expr, (∀ e ∈ es, (e.mapRecords f).freeVars = e.freeVars) →
        freeVarsOf (es.map (mapRecords f)) = freeVarsOf es := by
      intro es hes
      rw [freeVarsOf_eq_flatMap, freeVarsOf_eq_flatMap, List.flatMap_map]
      exact List.flatMap_congr hes
    cases e with
    | call t m args =>
      simp only [children, List.forall_mem_cons] at ih
      simp only [mapRecords_call, freeVars, ih.1, hall args ih.2]
    | invoke c args =>
      simp only [children, List.forall_mem_cons] at ih
      simp only [mapRecords_invoke, freeVars, ih.1, hall args ih.2]
    | staticCall m args => simp only [mapRecords_staticCall, freeVars, hall args ih]
    | member t m => exact ih t (by simp [children])
    | unary op t => exact ih t (by simp [children])
    | lambda ps b => exact congrArg (List.filter (· ∉ ps)) (ih b (by simp [children]))
    | binary op l r =>
      exact congrArg₂ (· ++ ·) (ih l (by simp [children])) (ih r (by simp [children]))
    | conditional t a b =>
      exact congrArg₂ (· ++ ·) (congrArg₂ (· ++ ·) (ih t (by simp [children]))
        (ih a (by simp [children]))) (ih b (by simp [children]))
    | _ => rfl

theorem strip_mapRecords (e : Expr) : (e.mapRecords f).strip = e.strip.mapRecords f := by
  fun_induction strip e with
  | case1 _ e ih => exact ih
  | case2 e ih => exact ih
  | case3 e hconvert hquote =>
    cases e with
    | unary op e =>
      cases op with
      | convert type => exact absurd rfl (hconvert type e)
      | quote => exact absurd rfl (hquote e)
      | _ => rfl
    | _ => rfl

end Expr

/-! ### Substitution -/

/-- Replaces the records of the replacements. -/
def Bindings.mapRecords (f : Record → Record) (bindings : Bindings) : Bindings :=
  bindings.map fun b => (b.1, b.2.mapRecords f)

namespace Bindings

variable {f : Record → Record}

theorem upsert_mapRecords (name : String) (e : Expr) (bindings : Bindings) :
    upsert name (e.mapRecords f) (mapRecords f bindings) =
      mapRecords f (upsert name e bindings) := by
  induction bindings with
  | nil => rfl
  | cons b bindings ih =>
    obtain ⟨name', e'⟩ := b
    unfold mapRecords at ih ⊢
    rw [List.map_cons, upsert, upsert]
    split
    · rfl
    · rw [ih, List.map_cons]

theorem lookup_mapRecords (name : String) (bindings : Bindings) :
    (mapRecords f bindings).lookup name = (bindings.lookup name).map (Expr.mapRecords f) :=
  lookup_map (fun _ => Expr.mapRecords f) bindings name

theorem ofPairs_mapRecords (ps : List String) (args : List Expr) :
    ofPairs (ps.zip (args.map (Expr.mapRecords f))) = mapRecords f (ofPairs (ps.zip args)) := by
  have hfold : ∀ (pairs : List (String × Expr)) (bindings : Bindings),
      (mapRecords f pairs).foldl (fun bindings pair => upsert pair.1 pair.2 bindings)
          (mapRecords f bindings) =
        mapRecords f
          (pairs.foldl (fun bindings pair => upsert pair.1 pair.2 bindings) bindings) := by
    intro pairs
    induction pairs with
    | nil => exact fun _ => rfl
    | cons pair pairs ih =>
      intro bindings
      rw [List.foldl_cons, ← ih, ← upsert_mapRecords]
      rfl
  have hzip : ps.zip (args.map (Expr.mapRecords f)) = mapRecords f (ps.zip args) := by
    rw [List.zip_map_right]
    rfl
  rw [hzip]
  exact hfold _ []

end Bindings

namespace Expr

variable {f : Record → Record}

theorem renameParams_mapRecords (incoming ps taken : List String) (active : Bindings) :
    renameParams incoming ps taken (active.mapRecords f) =
      ((renameParams incoming ps taken active).1,
        Bindings.mapRecords f (renameParams incoming ps taken active).2) := by
  induction ps generalizing taken active with
  | nil => rfl
  | cons p ps ih =>
    have hfresh : upsert p (var (freshName p taken)) (active.mapRecords f) =
        Bindings.mapRecords f (upsert p (var (freshName p taken)) active) :=
      Bindings.upsert_mapRecords p (var (freshName p taken)) active
    simp only [renameParams]
    split
    · rw [hfresh, ih]
    · rw [ih]

theorem substitute_mapRecords (e : Expr) (bindings : Bindings) :
    (e.substitute bindings).mapRecords f = (e.mapRecords f).substitute (bindings.mapRecords f) := by
  induction e using byChildren generalizing bindings with
  | step e ih =>
    by_cases hlambda : ∃ ps b, e = .lambda ps b
    · obtain ⟨ps, b, rfl⟩ := hlambda
      have hactive : (bindings.mapRecords f).filter (·.1 ∉ ps) =
          Bindings.mapRecords f (bindings.filter (·.1 ∉ ps)) := by
        unfold Bindings.mapRecords
        rw [List.filter_map]
        rfl
      have hempty : ∀ active : Bindings, (active.mapRecords f).isEmpty = active.isEmpty := by
        intro active
        cases active <;> rfl
      have hincoming : ∀ active : Bindings,
          (active.mapRecords f).flatMap (·.2.freeVars) = active.flatMap (·.2.freeVars) := by
        intro active
        simp [Bindings.mapRecords, List.flatMap_map, freeVars_mapRecords]
      simp only [mapRecords_lambda, substitute, hactive, hempty, hincoming, freeVars_mapRecords,
        renameParams_mapRecords]
      split
      · rfl
      · rw [mapRecords_lambda, ih b (by simp [children])]
    by_cases hvar : ∃ name, e = .var name
    · obtain ⟨name, rfl⟩ := hvar
      change ((bindings.lookup name).getD (var name)).mapRecords f =
        ((bindings.mapRecords f).lookup name).getD (var name)
      rw [Bindings.lookup_mapRecords]
      cases bindings.lookup name <;> rfl
    · have hmappedVar : ∀ x, e.mapRecords f ≠ var x := by
        intro x he
        cases e with
        | var name => exact hvar ⟨name, rfl⟩
        | _ => cases he
      have hmappedLambda : ∀ ps b, e.mapRecords f ≠ lambda ps b := by
        intro ps b he
        cases e with
        | lambda ps b => exact hlambda ⟨ps, b, rfl⟩
        | _ => cases he
      have hchildren : (e.children.map (·.substitute bindings)).map (mapRecords f) =
          (e.children.map (mapRecords f)).map (·.substitute (bindings.mapRecords f)) := by
        rw [List.map_map, List.map_map]
        exact List.map_congr_left fun c hc => ih c hc bindings
      rw [substitute_eq_mapChildren (fun x he => hvar ⟨x, he⟩) fun ps b he => hlambda ⟨ps, b, he⟩,
        substitute_eq_mapChildren hmappedVar hmappedLambda, ← withChildren_map, ← withChildren_map,
        mapRecords_withChildren, children_mapRecords, hchildren]

end Expr

/-! ### Passes -/

namespace Normal

open QueryTree.Expr

variable {f : Record → Record}

theorem canonicalComparison_mapRecords (left right flag : Expr) :
    canonicalComparison (left.mapRecords f) (right.mapRecords f) (flag.mapRecords f) =
      (canonicalComparison left right flag).mapRecords f := by
  cases flag with
  | constant v =>
    cases v with
    | bool b => cases b <;> rfl
    | _ => rfl
  | _ => rfl

theorem comparisonCall_mapRecords (m : Method) (args : List Expr) :
    comparisonCall m (args.map (mapRecords f)) = (comparisonCall m args).mapRecords f := by
  rcases args with _ | ⟨left, _ | ⟨right, _ | ⟨flag, _ | ⟨_, _⟩⟩⟩⟩
  case cons.cons.cons.nil =>
    simp only [List.map_cons, List.map_nil, comparisonCall]
    split
    · exact canonicalComparison_mapRecords left right flag
    · rfl
  all_goals
    simp only [List.map_cons, List.map_nil, comparisonCall, mapRecords_staticCall]

theorem comparisons_mapRecords (e : Expr) :
    comparisons (e.mapRecords f) = (comparisons e).mapRecords f := by
  induction e using byChildren with
  | step e ih =>
    by_cases hcall : ∃ m args, e = .staticCall m args
    · obtain ⟨m, args, rfl⟩ := hcall
      have hargs : (args.map (mapRecords f)).map comparisons =
          (args.map comparisons).map (mapRecords f) := by
        rw [List.map_map, List.map_map]
        exact List.map_congr_left ih
      simp only [mapRecords_staticCall, comparisons, comparisonsAll_eq_map, hargs]
      exact comparisonCall_mapRecords m (args.map comparisons)
    · have hmapped : ∀ m args, e.mapRecords f ≠ .staticCall m args := by
        intro m args he
        cases e with
        | staticCall m args => exact hcall ⟨m, args, rfl⟩
        | _ => cases he
      rw [comparisons_eq_mapChildren hmapped,
        comparisons_eq_mapChildren fun m args he => hcall ⟨m, args, he⟩, mapRecords_mapChildren ih]

theorem unfolded?_mapRecords (c : Expr) (args : List Expr) :
    unfolded? (c.mapRecords f) (args.map (mapRecords f)) =
      (unfolded? c args).map (mapRecords f) := by
  unfold unfolded?
  rw [strip_mapRecords]
  cases c.strip with
  | lambda ps b =>
    simp only [mapRecords_lambda, List.length_map, Bindings.ofPairs_mapRecords,
      ← substitute_mapRecords]
    split <;> rfl
  | _ => rfl

theorem unfoldAllWith_mapRecords {again : Expr → Except Error Expr} {es : List Expr}
    (h : ∀ e ∈ es, unfoldWith again (e.mapRecords f) = (unfoldWith again e).map (mapRecords f)) :
    unfoldAllWith again (es.map (mapRecords f)) =
      (unfoldAllWith again es).map (List.map (mapRecords f)) := by
  induction es with
  | nil => rfl
  | cons e es ih =>
    rw [List.forall_mem_cons] at h
    rw [List.map_cons, unfoldAllWith, unfoldAllWith, h.1, ih h.2]
    cases unfoldWith again e <;> cases unfoldAllWith again es <;> rfl

theorem unfoldWith_mapRecords {again : Expr → Except Error Expr}
    (hagain : ∀ e, again (e.mapRecords f) = (again e).map (mapRecords f)) (e : Expr) :
    unfoldWith again (e.mapRecords f) = (unfoldWith again e).map (mapRecords f) := by
  induction e using byUnfolding with
  | unfolded c args body hbody =>
    have hmapped : unfolded? (c.mapRecords f) (args.map (mapRecords f)) =
        some (body.mapRecords f) := by
      rw [unfolded?_mapRecords, hbody, Option.map_some]
    rw [mapRecords_invoke, unfoldWith_of_unfolded again hmapped,
      unfoldWith_of_unfolded again hbody, hagain]
  | kept e hnone ih =>
    have hmapped : ∀ c args, e.mapRecords f = .invoke c args → unfolded? c args = none := by
      intro c args he
      cases e with
      | invoke c' args' =>
        rw [mapRecords_invoke] at he
        cases he
        rw [unfolded?_mapRecords, hnone c' args' rfl, Option.map_none]
      | _ => cases he
    rw [unfoldWith_eq_map again hmapped, unfoldWith_eq_map again hnone, children_mapRecords,
      unfoldAllWith_mapRecords ih]
    cases unfoldAllWith again e.children with
    | error error => rfl
    | ok es => simp only [Except.map, mapRecords_withChildren]

theorem invocations_mapRecords (limit : Nat) (e : Expr) :
    invocations limit (e.mapRecords f) = (invocations limit e).map (mapRecords f) := by
  induction limit generalizing e with
  | zero => exact unfoldWith_mapRecords (fun _ => rfl) e
  | succ limit ih => exact unfoldWith_mapRecords ih e

theorem guardedTest_mapRecords (negated : Bool) (subject : Expr) (m : Method) (argument : Expr) :
    guardedTest negated (subject.mapRecords f) m (argument.mapRecords f) =
      (guardedTest negated subject m argument).mapRecords f := by
  have hempty : isEmptyString (argument.mapRecords f) = isEmptyString argument := by
    cases argument with
    | constant v => cases v <;> rfl
    | _ => rfl
  have hconstant : (argument.mapRecords f).isConstant = argument.isConstant := by
    cases argument <;> rfl
  unfold guardedTest
  rw [hempty]
  split
  · rfl
  · unfold testTail
    rw [hconstant]
    cases negated <;> cases argument.isConstant <;> rfl

theorem test?_mapRecords (e : Expr) :
    test? (e.mapRecords f) = (test? e).map fun (negated, s, m, a) =>
      (negated, s.mapRecords f, m, a.mapRecords f) := by
  have hcall : ∀ s m args, test? ((Expr.call s m args).mapRecords f) =
      (test? (.call s m args)).map fun (negated, s, m, a) =>
        (negated, s.mapRecords f, m, a.mapRecords f) := by
    intro s m args
    match args with
    | [a] =>
      simp only [mapRecords_call, List.map_cons, List.map_nil, test?]
      split <;> rfl
    | [] | _ :: _ :: _ => rfl
  cases e with
  | call s m args => exact hcall s m args
  | unary op e =>
    cases op with
    | not =>
      cases e with
      | call s m args =>
        match args with
        | [a] =>
          change test? (.unary .not (.call (s.mapRecords f) m [a.mapRecords f])) = _
          simp only [test?]
          split <;> rfl
        | [] | _ :: _ :: _ => rfl
      | _ => rfl
    | _ => rfl
  | _ => rfl

theorem stringTests_mapRecords (e : Expr) :
    stringTests (e.mapRecords f) = (stringTests e).mapRecords f := by
  induction e using byGrandchildren with
  | step e ih =>
    have hmapped := test?_mapRecords (f := f) e
    cases htest : test? e with
    | none =>
      rw [htest] at hmapped
      rw [stringTests_of_none htest, stringTests_of_none hmapped]
      exact mapRecords_mapChildren fun c hc => (ih c hc).1
    | some test =>
      obtain ⟨negated, s, m, a⟩ := test
      rw [htest] at hmapped
      have hparts : ∀ c ∈ (Expr.call s m [a]).children,
          stringTests (c.mapRecords f) = (stringTests c).mapRecords f := by
        obtain ⟨_, rfl⟩ := eq_of_test? htest
        cases negated with
        | false => exact fun c hc => (ih c hc).1
        | true => exact (ih (.call s m [a]) (by simp [negatedIf, Expr.not, children])).2
      rw [stringTests_of_test htest, stringTests_of_test hmapped, hparts s (by simp [children]),
        hparts a (by simp [children]), guardedTest_mapRecords]

theorem negatedIf_mapRecords (negated : Bool) (e : Expr) :
    negatedIf negated (e.mapRecords f) = (negatedIf negated e).mapRecords f := by
  cases negated <;> rfl

theorem negationsAll_mapRecords {es : List Expr}
    (h : ∀ e ∈ es, negations (e.mapRecords f) false = (negations e false).map (mapRecords f)) :
    negationsAll (es.map (mapRecords f)) = (negationsAll es).map (List.map (mapRecords f)) := by
  induction es with
  | nil => rfl
  | cons e es ih =>
    rw [List.forall_mem_cons] at h
    rw [List.map_cons, negationsAll, negationsAll, h.1, ih h.2]
    cases negations e false <;> cases negationsAll es <;> rfl

theorem Inert.mapRecords {e : Expr} (h : Inert e) (f : Record → Record) :
    Inert (e.mapRecords f) := by
  refine ⟨?_, ?_, ?_⟩
  · intro v he
    cases e with
    | constant v => exact h.not_constant v rfl
    | _ => cases he
  · intro d he
    cases e with
    | unary op t =>
      cases he
      exact h.not_negation t rfl
    | _ => cases he
  · intro op l r he
    cases e with
    | binary op l r => exact h.not_binary op l r rfl
    | _ => cases he

theorem negations_mapRecords (e : Expr) (negated : Bool) :
    negations (e.mapRecords f) negated = (negations e negated).map (mapRecords f) := by
  induction e using byNegations generalizing negated with
  | constant v => cases v <;> cases negated <;> rfl
  | negation d ih =>
    change negations (.unary .not (d.mapRecords f)) negated = _
    rw [negations, negations]
    exact ih _
  | binary op l r ihl ihr =>
    obtain ⟨inner, g, hg, heq⟩ := negations_binary op negated
    have hmap : ∀ l r, g (l.mapRecords f) (r.mapRecords f) = (g l r).mapRecords f := by
      intro l r
      rcases hg with ⟨op', rfl⟩ | rfl
      · rfl
      · exact negatedIf_mapRecords negated (.binary op l r)
    change negations (.binary op (l.mapRecords f) (r.mapRecords f)) negated = _
    rw [heq, heq, ihl, ihr]
    cases negations l inner with
    | error error => rfl
    | ok l =>
      cases negations r inner with
      | error error => rfl
      | ok r => exact congrArg Except.ok (hmap l r)
  | inert e hinert ih =>
    rw [hinert.negations_eq_map, (hinert.mapRecords f).negations_eq_map, children_mapRecords,
      negationsAll_mapRecords fun c hc => ih c hc false]
    cases negationsAll e.children with
    | error error => rfl
    | ok es => simp only [Except.map, ← mapRecords_withChildren, negatedIf_mapRecords]

end Normal

/-- The normal form of an expression with other records is the normal form with other records. -/
theorem Pass.normalize_mapRecords (f : Record → Record) (limit : Nat) (e : Expr) :
    (normalize limit).run (e.mapRecords f) = ((normalize limit).run e).map (Expr.mapRecords f) := by
  change (do
    let e ← Normal.invocations limit (Normal.comparisons (e.mapRecords f))
    let e ← Normal.negations (Normal.stringTests e) false
    .ok e) = Except.map (Expr.mapRecords f) (do
      let e ← Normal.invocations limit (Normal.comparisons e)
      let e ← Normal.negations (Normal.stringTests e) false
      .ok e)
  rw [Normal.comparisons_mapRecords, Normal.invocations_mapRecords]
  cases Normal.invocations limit (Normal.comparisons e) with
  | error error => rfl
  | ok e =>
    change (do
      let e ← Normal.negations (Normal.stringTests (e.mapRecords f)) false
      .ok e) = Except.map (Expr.mapRecords f) (do
        let e ← Normal.negations (Normal.stringTests e) false
        .ok e)
    rw [Normal.stringTests_mapRecords, Normal.negations_mapRecords]
    cases Normal.negations (Normal.stringTests e) false <;> rfl

end QueryTree
