import QueryTree.Expr.Chain
import QueryTree.Proofs.ClosedConstruction
import QueryTree.Proofs.ShapeSharing
import QueryTree.Proofs.CompileHistory

/-! Variables of compiled queries. A query without free variables is compiled into closed models if
its operator calls are confined: in what an operator selects and a later one applies a function to,
and in all parts of the operators if something is left for the builder to unfold. Without this a
variable may be left unbound: invocations are unfolded in what remains of an expression after its
operator calls are cut out, so an argument does not get to the variables of the calls. -/

namespace QueryTree

open QueryTree.Expr

namespace Arena

variable {a b : Arena} {root k : ModelId} {m : QueryModel} {e : Expr} {around : List String}

theorem Alike.holds (h : a.Alike b) (hm : b.model? k = some m) (he : b.Holds m e) :
    ∃ m', a.model? k = some m' ∧ a.Holds m' e := by
  have hmap := h.model? k
  rw [hm] at hmap
  obtain ⟨m', hm', hparts⟩ := Option.map_eq_some_iff.mp hmap
  have hdeclared : m'.declaredSources = m.declaredSources := congrArg Prod.fst hparts
  have hexpr : m'.expressions = m.expressions := congrArg Prod.snd hparts
  refine ⟨m', hm', ?_⟩
  rcases he with hin | ⟨s, hs, src, hsrc, heq⟩
  · exact .inl (hexpr ▸ hin)
  · exact .inr ⟨s, hdeclared ▸ hs, src, (h.source? s).trans hsrc, heq⟩

/-- Whether an expression is one of a model's. -/
def holdsAt (a : Arena) (k : ModelId) (e : Expr) : Bool :=
  (a.model? k).any fun m => decide (e ∈ m.expressions)

theorem Alike.holds_of_holdsAt (h : a.Alike b) (he : a.holdsAt k e = true) :
    ∃ m, b.model? k = some m ∧ b.Holds m e := by
  unfold holdsAt at he
  cases hm : a.model? k with
  | none => simp [hm] at he
  | some m =>
    have hin : e ∈ m.expressions := by simpa [hm] using he
    exact h.symm.holds hm (.inl hin)

theorem Alike.reachesUnder (h : a.Alike b) (hk : b.ReachesUnder root k around) :
    a.ReachesUnder root k around := by
  induction hk with
  | start => exact .start
  | step _ hm he hj ih =>
    obtain ⟨m', hm', he'⟩ := h.holds hm he
    exact .step ih hm' he' hj

theorem Alike.closed (h : a.Alike b) (hclosed : a.Closed root) : b.Closed root := by
  intro k around m e hk hm he
  obtain ⟨m', hm', he'⟩ := h.holds hm he
  exact hclosed k around m' e (h.reachesUnder hk) hm' he'

end Arena

def Expr.isInvocation : Expr → Bool
  | .invoke _ _ => true
  | _ => false

namespace Compiler

/-- Whether something is left for the builder to unfold. -/
def unfolds (c : Compiler) (shape : Expr) : Bool :=
  c.settings.normalizeInBuilder && shape.nodes.any (·.isInvocation)

/-- The operator calls of a shape are confined where the builder needs it. -/
def Confines (c : Compiler) (registry : Registry) (shape : Expr) : Prop :=
  registry.Confines (c.unfolds shape) shape ∧
    (c.unfolds shape = true → registry.Confined [] shape)

instance (c : Compiler) (registry : Registry) (shape : Expr) :
    Decidable (c.Confines registry shape) :=
  inferInstanceAs (Decidable (_ ∧ _))

variable {group : Compiler → Registry → Prop} {c : Compiler} {registry : Registry}
  {keyspace : Keyspace} {e shape : Expr} {store : ParameterStore} {cache : QueryCache}

theorem builder_keepsBound {strict quiet : Bool}
    (h : c.settings.normalizeInBuilder = true → strict = true ∨ quiet = true) :
    (c.builder registry).KeepsBound strict quiet := by
  intro fixed scopes home hfixed scope e he
  cases hnormal : c.settings.normalizeInBuilder with
  | true =>
    have hrule : RewriteRule (BoundNode (c.builder registry).registry quiet fixed scopes home) :=
      boundNode_rewriteRule ((h hnormal).imp_left hfixed)
    exact (Pass.runAll_throughout hrule (c.builder_keepsNodes registry) he).mono (fun _ h => h)
      fun _ _ => trivial
  | false =>
    have hpasses : (c.builder registry).passes = [.foldConstants (.standard c.ambient)] := by
      simp [builder, Builder.ofSettings, hnormal]
    rw [hpasses]
    exact Folder.fold_throughout boundNode_headRule _ he

/-! ### Shapes -/

theorem prepare_freeVars (hfree : e.freeVars = []) (hok : (c.prepare e store).1 = .ok shape) :
    shape.freeVars = [] := by
  have hscope : e.Throughout InScope [] := throughout_inScope_iff.mpr (by simp [hfree])
  have hkeeps := Pass.normalize_keepsNodes c.limit _ inScope_rule [] e hscope
  obtain ⟨normal, hrun, heq⟩ := exists_normal hok
  rw [hrun] at hkeeps
  rw [heq] at hok
  have hshape :=
    Extractor.extract_throughout inScope_rule.toHeadRule hkeeps (fun _ _ _ _ => nofun) hok
  exact List.subset_nil.mp (throughout_inScope_iff.mp hshape)

theorem prepare_canonical (hok : (c.prepare e store).1 = .ok shape) : shape.All Canonical := by
  obtain ⟨normal, hrun, heq⟩ := exists_normal hok
  have hkeeps : ∀ pass ∈ [Pass.invocations c.limit, .stringTests, .negations], pass.KeepsNodes :=
    fun pass hpass => Pass.standard_keepsNodes c.limit pass (List.mem_cons_of_mem _ hpass)
  have hnormal := Pass.runAll_all canonical_rule hkeeps (Normal.comparisons_canonical e)
  have hrest : Pass.runAll [Pass.invocations c.limit, .stringTests, .negations]
      (Normal.comparisons e) = .ok normal := hrun
  rw [hrest] at hnormal
  rw [heq] at hok
  have hthroughout : normal.Throughout (fun _ => Canonical) [] := throughout_iff_all.mpr hnormal
  exact throughout_iff_all.mp (Extractor.extract_throughout canonical_rule.toHeadRule hthroughout
    (fun _ _ _ _ => nofun) hok)

theorem translate_closed {query : TranslatedQuery} (hfree : shape.freeVars = [])
    (hq : shape.subqueries = []) (hcanonical : shape.All Canonical)
    (hconfines : c.Confines registry shape) (hok : (c.translate registry shape).1 = .ok query) :
    query.arena.Closed query.root := by
  obtain ⟨built, hbuilt, halike, hroot⟩ := translate_built hok
  rw [← hroot]
  apply halike.closed
  let quiet := !shape.nodes.any (·.isInvocation)
  have hpasses : (c.builder registry).KeepsBound (c.unfolds shape) quiet := by
    apply builder_keepsBound
    intro hnormal
    cases hany : shape.nodes.any (·.isInvocation) <;> simp [unfolds, quiet, hnormal, hany]
  apply Builder.build_closed hpasses _ hbuilt
  constructor
  · simp [hfree]
  · intro n hn
    refine ⟨?_, hcanonical n hn, ?_⟩
    · rintro j rfl
      have hj : j ∈ shape.subqueries := List.mem_filterMap.mpr ⟨_, hn, rfl⟩
      simp [hq] at hj
    · rintro hquiet callee args rfl
      have hnone : shape.nodes.any (·.isInvocation) = false := by simpa [quiet] using hquiet
      exact absurd rfl (List.any_eq_false.mp hnone _ hn)
  · exact hconfines.1
  · intro hs
    exact hconfines.2 (by simpa [Place.part] using hs)

/-! ### Compiled queries -/

/-- If a query has neither free variables nor references, and if the operator calls of its shape are
confined, then it is compiled into closed models, whatever was cached before. -/
theorem compile_closed (hfree : e.freeVars = []) (hs : e.sourceRefs = []) (hq : e.subqueries = [])
    (hcache : Filled group cache) (hgroup : group c registry)
    (hconfines : ∀ shape, (c.prepare e store).1 = .ok shape →
      ∀ c' registry', group c' registry' → c'.Confines registry' shape)
    {compiled : CompiledQuery}
    (hok : (c.compile registry keyspace e store cache).result = .ok compiled) :
    compiled.query.arena.Closed compiled.query.root := by
  obtain ⟨shape, c', registry', hshape, hgroup', htranslate⟩ := compile_translates hcache hgroup hok
  have hrefs := c.prepare_refuses (Expr.refsIn_iff.mpr (by simp [hs, hq]) :
    e.RefsIn (fun _ => False) fun _ => False) store
  rw [hshape] at hrefs
  have hnone : shape.subqueries = [] :=
    List.eq_nil_iff_forall_not_mem.mpr (Expr.refsIn_iff.mp hrefs).2
  exact translate_closed (prepare_freeVars hfree hshape) hnone (prepare_canonical hshape)
    (hconfines shape hshape c' registry' hgroup') htranslate

/-- Whether an order of a customer meets a condition. The condition is a lambda that stays in the
model, and the query in it mentions what the lambda binds. -/
def orderExists (customer : Expr) : Expr :=
  .call (.member customer ⟨"Customer", "Orders"⟩) (.ofParts "List" "Exists" 1) [.lambda ["o"]
    (.anyWhere (.entityQuery "Order") (.lambda ["p"]
      (.binary .eq (.member (.var "p") ⟨"Order", "Id"⟩) (.member (.var "o") ⟨"Order", "Id"⟩))))]

/-- Such conditions in what is filtered by and in what is selected last. -/
def customersByOrders : Expr :=
  .select (.filtered (.entityQuery "Customer") (.lambda ["c"] (orderExists (.var "c"))))
    (.lambda ["c"] (orderExists (.var "c")))

/-- The conditions are compiled into a closed query, though a variable of an inner model is bound
only around the reference to it. -/
theorem compile_closed_customersByOrders :
    ∃ compiled, (standardCompiler.compile .standard .sync customersByOrders [] .empty).result =
        .ok compiled ∧
      compiled.query.arena.Closed compiled.query.root ∧
      ∃ k m e, compiled.query.arena.ReachesUnder compiled.query.root k ["o"] ∧
        compiled.query.arena.model? k = some m ∧ compiled.query.arena.Holds m e ∧
        "o" ∈ e.freeVars := by
  let outer : Expr :=
    .call (.member (.sourceRef 0) ⟨"Customer", "Orders"⟩) (.ofParts "List" "Exists" 1)
    [.lambda ["o"] (.subQuery 1)]
  let inner : Expr := .binary .eq (.member (.sourceRef 2) ⟨"Order", "Id"⟩)
    (.member (.var "o") ⟨"Order", "Id"⟩)
  have hbuilds : standardCompiler.buildsPlain .standard customersByOrders [] (fun built =>
      built.root == 2 && built.arena.holdsAt 2 outer && built.arena.holdsAt 1 inner) = true := by
    decide +kernel
  obtain ⟨compiled, built, hcompiled, halike, hroot, htest⟩ :=
    compile_of_buildsPlain .sync .empty hbuilds
  simp only [Bool.and_eq_true, beq_iff_eq] at htest
  obtain ⟨⟨htwo, houter⟩, hinner⟩ := htest
  obtain ⟨m, hm, he⟩ := halike.holds_of_holdsAt houter
  obtain ⟨m', hm', he'⟩ := halike.holds_of_holdsAt hinner
  have hcache : Filled (fun c registry => c = standardCompiler ∧ registry = .standard) .empty :=
    .empty
  have hconfines : ∀ shape, (standardCompiler.prepare customersByOrders []).1 = .ok shape →
      standardCompiler.Confines .standard shape := by
    intro shape hshape
    have hsame : (standardCompiler.prepare customersByOrders []).1.toOption =
        some customersByOrders := by decide +kernel
    rw [hshape] at hsame
    obtain rfl : shape = customersByOrders := Option.some.inj hsame
    decide +kernel
  have hlambda : (Expr.lambda ["o"] (.subQuery 1)).Occurs ([] ++ ["o"]) (.subQuery 1) :=
    .child (by simp [children]) (.here _)
  have hoccurs : outer.Occurs (([] ++ ["o"]) ++ []) (.subQuery 1) :=
    .child (by simp [outer, children]) hlambda
  refine ⟨compiled, hcompiled, ?_, 1, m', inner, ?_, hm', he', by simp [inner, freeVars]⟩
  · apply compile_closed (by decide) (by decide) (by decide) hcache ⟨rfl, rfl⟩ _ hcompiled
    rintro shape hshape c' registry' ⟨rfl, rfl⟩
    exact hconfines shape hshape
  · rw [← hroot, htwo]
    exact .step .start hm he hoccurs

/-- Whether each customer has orders, where the customer is handed to a function that a function
returns. -/
def curriedOrders : Expr :=
  .select (.entityQuery "Customer") (.lambda ["c"]
    (.invoke (.invoke (.lambda ["x"] (.lambda ["y"]
        (.anyWhere (.entityQuery "Order") (.lambda ["o"]
          (.binary .eq (.member (.var "o") ⟨"Order", "CustomerId"⟩) (.var "y"))))))
        [.constant (.int 1)])
      [.member (.var "c") ⟨"Customer", "Id"⟩]))

/-- One unfolding leaves an invocation to the builder. By then the query over the orders is cut out,
and its variable is bound nowhere once the invocation is unfolded. -/
theorem compile_curriedOrders_not_closed :
    curriedOrders.freeVars = [] ∧ curriedOrders.sourceRefs = [] ∧ curriedOrders.subqueries = [] ∧
    ∃ compiled, (standardCompiler.compile .standard .sync curriedOrders [] .empty).result =
        .ok compiled ∧ ¬ compiled.query.arena.Closed compiled.query.root := by
  let inner : Expr := .binary .eq (.member (.sourceRef 1) ⟨"Order", "CustomerId"⟩) (.var "y")
  have hbuilds : standardCompiler.buildsPlain .standard curriedOrders [] (fun built =>
      built.root == 1 && built.arena.holdsAt 1 (.subQuery 0) && built.arena.holdsAt 0 inner) =
        true := by
    decide +kernel
  obtain ⟨compiled, built, hcompiled, halike, hroot, htest⟩ :=
    compile_of_buildsPlain .sync .empty hbuilds
  simp only [Bool.and_eq_true, beq_iff_eq] at htest
  obtain ⟨⟨hone, houter⟩, hinner⟩ := htest
  obtain ⟨m, hm, he⟩ := halike.holds_of_holdsAt houter
  obtain ⟨m', hm', he'⟩ := halike.holds_of_holdsAt hinner
  refine ⟨by decide, by decide, by decide, compiled, hcompiled, fun hclosed => ?_⟩
  rw [← hroot, hone] at hclosed
  have hreached : compiled.query.arena.ReachesUnder 1 0 ([] ++ []) := .step .start hm he (.here _)
  have hoccurs : inner.Occurs ([] ++ []) (.var "y") := .child (by simp [inner, children]) (.here _)
  have hbound := hclosed 0 _ m' inner hreached hm' he' _ "y" hoccurs
  simp at hbound

end Compiler

end QueryTree
