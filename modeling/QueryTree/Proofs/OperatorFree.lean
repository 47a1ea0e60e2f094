import QueryTree.Expr.Chain
import QueryTree.Proofs.ConstructionResult

/-! Models hold no operator calls. Every expression that enters the arena has had its chains cut out
first, wherever they stand in it: under lambdas and conditionals, in arguments, below conversions
and quotes. The passes that run afterwards keep the methods that are called, but for the foreign
comparison, which becomes a call of `String.Compare`. -/

namespace QueryTree

open QueryTree.Expr

variable {r : Registry}

/-- Not a call without receiver, on a first argument, or a call by a method of which `q` holds. -/
def Expr.CallsBy (q : Method → Prop) : Expr → Prop
  | .staticCall m (_ :: _) => q m
  | _ => True

/-- Passes keep the methods that are called, but for the comparison of strings. -/
theorem Expr.callsBy_passRule {q : Method → Prop} (h : q .stringCompare) :
    PassRule (CallsBy q) where
  constant _ _ := trivial
  unary _ _ _ := trivial
  binary _ _ _ _ := trivial
  lambda _ _ _ := trivial
  conditional _ _ _ _ := trivial
  member _ _ _ _ _ := trivial
  call _ _ _ _ _ _ _ _ := trivial
  staticCall := by
    intro _ m args args' hlength hcall
    cases args with
    | nil =>
      obtain rfl := List.length_eq_zero_iff.mp hlength
      trivial
    | cons first rest =>
      cases args' with
      | nil => cases hlength
      | cons => exact hcall
  invoke _ _ _ _ _ _ _ := trivial
  var _ := trivial
  comparison _ _ _ _ _ _ _ _ _ := h

theorem Registry.kind?_eq_none_iff {e : Expr} :
    r.kind? e = none ↔ e.CallsBy fun m => r.lookup m = none := by
  unfold Registry.kind? Expr.CallsBy
  split <;> simp

/-- No pass makes an operator call, unless the registry takes string comparison for one. -/
theorem Registry.kind?_passRule (h : r.lookup .stringCompare = none) :
    PassRule fun n => r.kind? n = none := by
  simpa only [Registry.kind?_eq_none_iff] using Expr.callsBy_passRule h

/-- Whatever an expression is made of, no operator calls are left in it once it is in the arena. -/
def BuildRule.operatorFree (b : Builder) (h : b.registry.lookup .stringCompare = none)
    (hpasses : ∀ pass ∈ b.passes, pass.KeepsNodes) : BuildRule b where
  raw _ _ _ := True
  done _ _ e := e.All fun n => b.registry.kind? n = none
  raw_grow _ h := h
  done_grow _ h := h
  loosen h := h
  source _ _ _ := all_iff_children.mpr ⟨rfl, by simp [children]⟩
  subquery _ _ := all_iff_children.mpr ⟨rfl, by simp [children]⟩
  entity _ := all_iff_children.mpr ⟨rfl, by simp [children]⟩
  strip h := h
  bind _ _ _ := trivial
  operators _ := ⟨trivial, fun _ _ _ _ _ _ => trivial⟩
  descend _ _ _ _ := trivial
  chain _ _ _ := ⟨[], trivial, fun _ _ _ _ => all_iff_children.mpr ⟨rfl, by simp [children]⟩⟩
  rebuild _ _ hnone hlength hes :=
    (Registry.kind?_passRule h).all_withChildren hnone hlength hes
  passes he :=
    (Pass.runAll_all (Registry.kind?_passRule h) hpasses he).mono (fun _ he => he)
      fun _ _ => trivial

theorem Builder.standard_keepsNodes (registry : Registry) (limit : Nat) (ambient : Ambient) :
    ∀ pass ∈ (standard registry limit ambient).passes, pass.KeepsNodes := by
  simp only [standard, List.forall_mem_cons, List.not_mem_nil, false_implies,
    implies_true, and_true]
  exact ⟨Pass.normalize_keepsNodes limit, Pass.foldConstants_keepsNodes _⟩

/-- An expression without operator calls: calls without receiver, on a first argument, of methods
that the registry recognizes. -/
def Registry.OperatorFree (r : Registry) (e : Expr) : Prop :=
  ∀ method first rest, .staticCall method (first :: rest) ∈ e.nodes → r.lookup method = none

theorem Registry.operatorFree_of_kind? {e : Expr} (h : e.All fun n => r.kind? n = none) :
    r.OperatorFree e :=
  fun _ _ _ hmem => h _ hmem

namespace Builder

/-- Construction leaves no operator behind. With the standard passes, and if string comparison is no
operator, neither the expressions of the models nor the sequences of the sources contain an operator
call at any depth. -/
theorem build_operatorFree (registry : Registry) (ambient : Ambient) (limit depth : Nat) (e : Expr)
    {built : BuiltQuery} (hcompare : registry.lookup .stringCompare = none)
    (hbuilt : (standard registry limit ambient).build depth e = .ok built) :
    (∀ m ∈ built.arena.models, ∀ part ∈ m.expressions, registry.OperatorFree part) ∧
      ∀ src ∈ built.arena.sources, registry.OperatorFree src.origin := by
  let R := BuildRule.operatorFree (standard registry limit ambient) hcompare
    (standard_keepsNodes registry limit ambient)
  have hraw : R.raw [] (.part [] false) e := trivial
  obtain ⟨_, hmodels, hsources⟩ := build_done hraw hbuilt
  refine ⟨fun m hm part hpart => ?_, fun src hsrc => ?_⟩
  · obtain ⟨_, hdone⟩ := hmodels m hm part hpart
    exact Registry.operatorFree_of_kind? hdone
  · obtain ⟨_, hdone⟩ := hsources src hsrc
    exact Registry.operatorFree_of_kind? hdone

/-- Customers joined with the large orders, if there are any; operators stand in a sequence to join,
below a conversion, under a conditional and in a lambda that is invoked. -/
def largeOrders : Expr :=
  let large : Expr := .filtered (.entityQuery "Order") (.lambda ["o"]
    (.binary .gt (.member (.var "o") ⟨"Order", "Total"⟩) (.constant (.int 100))))
  .filtered
    (.join (.entityQuery "Customer") (.distinct large)
      (.lambda ["c"] (.member (.var "c") ⟨"Customer", "Id"⟩))
      (.lambda ["o"] (.member (.var "o") ⟨"Order", "CustomerId"⟩))
      (.lambda ["c", "o"] (.var "c")))
    (.lambda ["c"] (.conditional (.unary (.convert "bool") (.any large))
      (.invoke (.lambda ["x"] (.anyWhere (.member (.var "x") ⟨"Customer", "Orders"⟩)
        (.lambda ["o"] (.member (.var "o") ⟨"Order", "Open"⟩)))) [.var "c"])
      (.constant (.bool false))))

theorem build_operatorFree_largeOrders :
    let b : Builder := .standard .standard 8 ⟨⟨0, 0⟩, fun _ => .empty⟩
    Registry.standard.lookup .stringCompare = none ∧ ∃ built, b.build 8 largeOrders = .ok built ∧
      (∀ m ∈ built.arena.models, ∀ part ∈ m.expressions, Registry.standard.OperatorFree part) ∧
      ∀ src ∈ built.arena.sources, Registry.standard.OperatorFree src.origin := by
  intro b
  have hcompare : Registry.standard.lookup .stringCompare = none := by decide
  have hok : (b.build 8 largeOrders).isOk = true := by decide +kernel
  obtain ⟨built, hbuilt⟩ := exists_of_isOk hok
  exact ⟨hcompare, built, hbuilt, build_operatorFree .standard _ 8 8 largeOrders hcompare hbuilt⟩

end Builder

end QueryTree
