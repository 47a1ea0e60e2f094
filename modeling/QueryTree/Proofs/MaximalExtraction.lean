import QueryTree.Proofs.ParameterRun

/-! Extraction replaces exactly the maximal subexpressions that may be computed early. -/

namespace QueryTree

namespace Expr

/-- Replaces the parameters of an expression. -/
def mapParameters (f : String → Expr) (e : Expr) : Expr :=
  match e with
  | parameter name => f name
  | e => e.withChildren (e.children.attach.map fun ⟨c, _⟩ => c.mapParameters f)
termination_by sizeOf e
decreasing_by exact sizeOf_lt_of_mem_children (by assumption)

/-- The expression with the values of a store in the place of its parameters. -/
def fill (store : ParameterStore) (e : Expr) : Expr :=
  e.mapParameters fun name =>
    match store.value? name with
    | some v => constant v
    | none => parameter name

/-- The expression with the names of its parameters left out. -/
def unnamed (e : Expr) : Expr := e.mapParameters fun _ => parameter ""

@[simp] theorem mapParameters_parameter (f : String → Expr) (name : String) :
    (parameter name).mapParameters f = f name := by
  rw [mapParameters]

theorem mapParameters_of_ne {f : String → Expr} {e : Expr} (h : ∀ name, e ≠ parameter name) :
    e.mapParameters f = e.withChildren (e.children.map (·.mapParameters f)) := by
  rw [mapParameters]
  · simp
  · exact h

@[simp] theorem mapParameters_constant (f : String → Expr) (v : Value) :
    (constant v).mapParameters f = constant v :=
  mapParameters_of_ne (by simp)

theorem mapParameters_withChildren {f : String → Expr} {e : Expr} {es : List Expr}
    (h : ∀ name, e ≠ parameter name) (hlen : es.length = e.children.length) :
    (e.withChildren es).mapParameters f = e.withChildren (es.map (·.mapParameters f)) := by
  have hne : ∀ name, e.withChildren es ≠ parameter name := by
    intro name heq
    cases e with
    | parameter other => exact h other rfl
    | _ => unfold withChildren at heq; split at heq <;> cases heq
  rw [mapParameters_of_ne hne, children_withChildren hlen]
  exact withChildren_withChildren hlen (by simpa using hlen)

end Expr

namespace Extractor

/-- A parameter without its name, or the value. -/
def mark (x : Extractor) (inLambda literal : Bool) (t : Expr) : Expr :=
  if x.becomesParameter inLambda literal t then .parameter "" else x.valueOf t

variable {x : Extractor} {inLambda literal : Bool} {e : Expr}

theorem mapParameters_replaceMaximal {put : Bool → Bool → Expr → Expr} {f : String → Expr}
    (hp : ∀ name, .parameter name ∉ e.nodes) :
    (x.replaceMaximal put inLambda literal e).mapParameters f =
      x.replaceMaximal (fun inLambda literal t => (put inLambda literal t).mapParameters f)
        inLambda literal e := by
  induction e using Expr.byChildren generalizing inLambda literal with
  | step e ih =>
    cases hm : x.movable e with
    | true => rw [replaceMaximal_of_movable hm, replaceMaximal_of_movable hm]
    | false =>
      have hpe : ∀ name, e ≠ .parameter name := by
        rintro name rfl
        exact hp name (by simp [Expr.nodes])
      have hpc : ∀ c ∈ e.children, ∀ name, .parameter name ∉ c.nodes := by
        intro c hc name hname
        apply hp name
        rw [Expr.nodes_eq]
        exact List.mem_cons_of_mem _ (List.mem_flatMap.mpr ⟨c, hc, hname⟩)
      rw [replaceMaximal_of_not hm, replaceMaximal_of_not hm,
        Expr.mapParameters_withChildren hpe (by simp), List.map_map]
      congr 1
      apply List.map_congr_left
      intro c hc
      exact ih c hc (hpc c hc)

theorem mapParameters_valueOf {f : String → Expr} {t : Expr} {v : Value}
    (hv : x.interpreter.evaluate t = .ok v) : (x.valueOf t).mapParameters f = x.valueOf t := by
  rw [valueOf_of_ok hv, Expr.mapParameters_constant]

/-- The values that fill the shape of an extraction take the places of its sites. A site that became
a parameter takes the value of the parameter, any other has its value already. -/
theorem fill_shape {store values : ParameterStore} (hstore : store.Numbered)
    (hp : ∀ name, .parameter name ∉ e.nodes) (hrun : (x.placements e store).1 = .ok ())
    {value : Expr → Value}
    (hparameter : ∀ t ∈ x.maximal e, ∀ name binding, x.bindingOf t = .ok binding →
      (x.placements e store).2.store.lookup name = some binding →
        values.value? name = some (value t))
    (hvalue : ∀ t ∈ x.maximal e, x.defers t = false → x.interpreter.evaluate t = .ok (value t)) :
    (x.shape (x.placements e store).2 e).fill values =
      x.replaceMaximal (fun _ _ t => .constant (value t)) false false e := by
  rw [Expr.fill, shape, mapParameters_replaceMaximal hp]
  apply replaceMaximal_congr
  intro site hsite
  have hmaximal : site.root ∈ x.maximal e := mem_maximal_iff.mpr ⟨site, hsite, rfl⟩
  rcases put_cases hstore hrun hsite with ⟨_, name, binding, hput, hb, hlookup⟩ | ⟨_, hd, hput⟩
  · rw [hput, Expr.mapParameters_parameter, hparameter _ hmaximal name binding hb hlookup]
  · have hv := hvalue _ hmaximal hd
    rw [hput, mapParameters_valueOf hv, valueOf_of_ok hv]

theorem defers_of_direct (hx : x.contextAccessors = false) (t : Expr) : x.defers t = false := by
  rw [defers, hx, Bool.false_and]

theorem extract_direct_ok_iff {store : ParameterStore} (hx : x.contextAccessors = false)
    (hstore : store.Numbered) : (∃ e', (x.extract e store).1 = .ok e') ↔
      ∀ t ∈ x.maximal e, ∃ v, x.interpreter.evaluate t = .ok v := by
  rw [extract_ok_iff e hstore]
  simp only [exists_bindingOf_iff (defers_of_direct hx _)]

/-- A direct extraction that succeeds, filled with its own values. -/
theorem fill_of_extract {store : ParameterStore} {e' : Expr} (hx : x.contextAccessors = false)
    (hstore : store.Numbered) (hp : ∀ name, .parameter name ∉ e.nodes)
    (he' : (x.extract e store).1 = .ok e') {value : Expr → Value}
    (hvalue : ∀ t ∈ x.maximal e, x.interpreter.evaluate t = .ok (value t)) :
    e'.fill (x.extract e store).2 =
      x.replaceMaximal (fun _ _ t => .constant (value t)) false false e := by
  obtain ⟨hrun, rfl⟩ := eq_shape_of_extract he'
  rw [extract_eq]
  apply fill_shape hstore hp hrun
  · intro t ht name binding hb hlookup
    rw [bindingOf_of_not_defers (defers_of_direct hx t), hvalue t ht] at hb
    obtain rfl := Except.ok.inj hb
    simp [ParameterStore.value?, ParameterStore.get?, hlookup]
  · intro t ht _
    exact hvalue t ht

theorem exists_values {es : List Expr} {ip : Interpreter}
    (h : ∀ t ∈ es, ∃ v, ip.evaluate t = .ok v) :
    ∃ value : Expr → Value, ∀ t ∈ es, ip.evaluate t = .ok (value t) := by
  refine ⟨fun t => ((ip.evaluate t).toOption).getD .null, ?_⟩
  intro t ht
  obtain ⟨v, hv⟩ := h t ht
  simp [hv, Except.toOption]

/-- Extraction succeeds exactly if all maximal subexpressions that move have values. With the values
of the parameters filled in, its result is the expression with each of these subexpressions replaced
by its value; without their names, it shows which of them became parameters. -/
theorem extract_replaces_maximal (x : Extractor) (hx : x.contextAccessors = false)
    (store : ParameterStore) (hstore : store.Extracted) (e : Expr)
    (hp : ∀ name, .parameter name ∉ e.nodes) :
    ((∃ e', (x.extract e store).1 = .ok e') ↔
      ∀ t ∈ x.maximal e, ∃ v, x.interpreter.evaluate t = .ok v) ∧
    ∀ e', (x.extract e store).1 = .ok e' →
      e'.fill (x.extract e store).2 = x.replaceMaximal (fun _ _ => x.valueOf) false false e ∧
      e'.unnamed = x.replaceMaximal x.mark false false e := by
  have hok := extract_direct_ok_iff (e := e) hx hstore.numbered
  refine ⟨hok, ?_⟩
  intro e' he'
  obtain ⟨value, hvalue⟩ := exists_values (hok.mp ⟨e', he'⟩)
  have hsite : ∀ site ∈ x.sites false false e,
      x.interpreter.evaluate site.root = .ok (value site.root) :=
    fun site hsite => hvalue site.root (mem_maximal_iff.mpr ⟨site, hsite, rfl⟩)
  constructor
  · rw [fill_of_extract hx hstore.numbered hp he' hvalue]
    apply replaceMaximal_congr
    intro site hs
    rw [valueOf_of_ok (hsite site hs)]
  · obtain ⟨hrun, rfl⟩ := eq_shape_of_extract he'
    rw [Expr.unnamed, shape, mapParameters_replaceMaximal hp]
    apply replaceMaximal_congr
    intro site hs
    have hmark : x.parameterizes site.inLambda site.literal site.root =
        x.becomesParameter site.inLambda site.literal site.root := by
      rw [parameterizes, defers_of_direct hx, Bool.false_or]
    rcases put_cases hstore.numbered hrun hs with ⟨hpar, name, binding, hput, _⟩ | ⟨hpar, _, hput⟩
    · rw [hput, Expr.mapParameters_parameter, mark, ← hmark, hpar]
      rfl
    · rw [hput, mapParameters_valueOf (hsite site hs), mark, ← hmark, hpar]
      rfl

/-- The orders of a customer that have a rank; the rank has to be a literal. -/
def ordersOf (customer rank : Expr) : Expr :=
  .staticCall (.queryable "Where" 2) [.entityQuery "Order", .lambda ["o"]
    (.and
      (.eq (.member (.var "o") ⟨"Order", "Customer"⟩) customer)
      (.call (.var "o") ⟨⟨"Order", "HasRank", 1⟩, [], true⟩ [rank]))]

/-- The customer is a captured name, and the rank a sum. -/
def rankedOrders : Expr :=
  ordersOf (.member (.constant (.record "Session" [("Name", .string "Ann")])) ⟨"Session", "Name"⟩)
    (.binary .add (.constant (.int 1)) (.constant (.int 2)))

def plain : Extractor := standard ⟨⟨0, 0⟩, fun _ => .empty⟩

def usedStore : ParameterStore := (plain.extract (.constant (.int 5)) []).2

theorem extract_replaces_maximal_ranked :
    let shape := ordersOf (.parameter "__Name_1") (.constant (.int 3))
    (plain.extract rankedOrders usedStore).1 = .ok shape ∧
      shape.fill (plain.extract rankedOrders usedStore).2 =
        ordersOf (.constant (.string "Ann")) (.constant (.int 3)) ∧
      plain.replaceMaximal plain.mark false false rankedOrders =
        ordersOf (.parameter "") (.constant (.int 3)) := by
  intro shape
  have hp : ∀ name, .parameter name ∉ rankedOrders.nodes := by
    simp [rankedOrders, ordersOf, Expr.nodes, Expr.nodesOf, Expr.and, Expr.eq]
  have hshape : (plain.extract rankedOrders usedStore).1.toOption.map id = some shape := by
    decide +kernel
  have hvalues : plain.replaceMaximal (fun _ _ => plain.valueOf) false false rankedOrders =
      ordersOf (.constant (.string "Ann")) (.constant (.int 3)) := by decide +kernel
  have hunnamed : shape.unnamed = ordersOf (.parameter "") (.constant (.int 3)) := by
    decide +kernel
  obtain ⟨e', hresult, rfl⟩ := exists_of_toOption_map hshape
  obtain ⟨hfill, hmark⟩ := (extract_replaces_maximal plain rfl usedStore
    (.extract plain _ .empty) rankedOrders hp).2 _ hresult
  exact ⟨hresult, hfill.trans hvalues, hmark.symm.trans hunnamed⟩

end Extractor

end QueryTree
