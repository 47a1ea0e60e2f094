import QueryTree.Expr.Chain
import QueryTree.Proofs.OperatorRecords

/-! The operators of a query in the order of their application. A model evaluates its clauses before
its operators, and after the subquery that its main source ranges over; read in this order, the
models of a chain give back the operators of the chain. -/

namespace QueryTree

/-! ### Entries of a model -/

namespace QueryModel

variable {m : QueryModel}

theorem entries_operators_of_lastOperator? (h : m.lastOperator? = none) :
    m.operators.flatMap (·.entries) = [] := by
  rw [lastOperator?, List.find?_eq_none] at h
  rw [List.flatMap_eq_nil_iff]
  intro op hop
  have hdirective : op.isDirective = true := by simpa using h op (List.mem_reverse.mpr hop)
  simp [ResultOperator.entries, hdirective]

theorem entries_addClause (h : m.lastOperator? = none) (new : Clause) :
    (m.addClause new).entries = m.entries ++ new.entries := by
  simp [entries, addClause, entries_operators_of_lastOperator? h]

theorem entries_addOperator (m : QueryModel) (op : ResultOperator) :
    (m.addOperator op).entries = m.entries ++ op.entries := by
  simp [entries, addOperator]

end QueryModel

namespace Construction

theorem extendOrdering_append (key : SortKey) (front : List Clause) (keys : List SortKey) :
    extendOrdering key (front ++ [.orderBy keys]) = front ++ [.orderBy (keys ++ [key])] := by
  induction front with
  | nil => rfl
  | cons clause front ih =>
    cases front with
    | nil => simp [extendOrdering]
    | cons clause' front => simpa [extendOrdering] using ih

theorem clauses_of_endsInOrdering {m : QueryModel} (h : endsInOrdering m = true) :
    m.lastOperator? = none ∧ ∃ front keys, m.clauses = front ++ [.orderBy keys] := by
  rw [endsInOrdering, Bool.and_eq_true, Option.isNone_iff_eq_none] at h
  obtain ⟨hlast, h⟩ := h
  refine ⟨hlast, ?_⟩
  split at h
  next keys hkeys =>
    obtain ⟨front, hfront⟩ := List.getLast?_eq_some_iff.mp hkeys
    exact ⟨front, keys, hfront⟩
  next => cases h

theorem entries_extendOrdering {m : QueryModel} (hends : endsInOrdering m = true)
    (hkeys : .orderBy [] ∉ m.clauses) (key : SortKey) :
    QueryModel.entries { m with clauses := extendOrdering key m.clauses } =
      m.entries ++ [⟨.thenBy key.descending, none, [.inl key.key]⟩] := by
  obtain ⟨hlast, front, keys, hclauses⟩ := clauses_of_endsInOrdering hends
  have hoperators := QueryModel.entries_operators_of_lastOperator? hlast
  cases keys with
  | nil => simp [hclauses] at hkeys
  | cons first further =>
    simp [QueryModel.entries, hclauses, extendOrdering_append, hoperators, Clause.entries,
      SortKey.entries]

theorem entries_extendInclude? {names : List String} {ops ops' : List ResultOperator}
    (h : extendInclude? names ops = some ops') : ops'.map (·.entries) = ops.map (·.entries) := by
  fun_induction extendInclude? names ops generalizing ops' with
  | case1 => cases h
  | case2 source front ops =>
    obtain rfl := Option.some.inj h
    rfl
  | case3 op ops _ ih =>
    obtain ⟨ops'', hops, rfl⟩ := Option.map_eq_some_iff.mp h
    rw [List.map_cons, List.map_cons, ih hops]

end Construction

/-! ### Linearizations -/

namespace Arena

/-- The operators on the items of a model, in the order of their application: those of the subquery
that its main source ranges over, if it ranges over one, then its own. -/
inductive Linearizes (a : Arena) : QueryModel → List Entry → Prop where
  | root {m : QueryModel} {src : QuerySource} (hs : a.source? m.mainFrom = some src)
      (ho : ∀ j, src.origin ≠ .subQuery j) : Linearizes a m m.entries
  | above {m n : QueryModel} {src : QuerySource} {j : ModelId} {l : List Entry}
      (hs : a.source? m.mainFrom = some src) (ho : src.origin = .subQuery j)
      (hn : a.model? j = some n) (h : Linearizes a n l) : Linearizes a m (l ++ m.entries)

namespace Linearizes

variable {a b : Arena} {m n : QueryModel} {l l' : List Entry}

theorem unique (h : a.Linearizes m l) (h' : a.Linearizes m l') : l' = l := by
  induction h generalizing l' with
  | root hs ho =>
    cases h' with
    | root => rfl
    | above hs' ho' =>
      obtain rfl := Option.some.inj (hs.symm.trans hs')
      exact absurd ho' (ho _)
  | above hs ho hn _ ih =>
    cases h' with
    | root hs' ho' =>
      obtain rfl := Option.some.inj (hs.symm.trans hs')
      exact absurd ho (ho' _)
    | above hs' ho' hn' h' =>
      obtain rfl := Option.some.inj (hs.symm.trans hs')
      obtain rfl := Expr.subQuery.inj (ho.symm.trans ho')
      obtain rfl := Option.some.inj (hn.symm.trans hn')
      rw [ih h']

theorem extend (h : a.Linearizes m l) (hab : a.Extends b) : b.Linearizes m l := by
  induction h with
  | root hs ho =>
    obtain ⟨src', hs', heq⟩ := hab.origins _ _ hs
    exact .root hs' (heq ▸ ho)
  | above hs ho hn _ ih =>
    obtain ⟨src', hs', heq⟩ := hab.origins _ _ hs
    exact .above hs' (heq.trans ho) (hab.model? hn) ih

theorem append {more : List Entry} (h : a.Linearizes m l) (hmain : n.mainFrom = m.mainFrom)
    (hentries : n.entries = m.entries ++ more) : a.Linearizes n (l ++ more) := by
  cases h with
  | root hs ho =>
    rw [← hentries]
    exact .root (hmain ▸ hs) ho
  | above hs ho hn h =>
    rw [List.append_assoc, ← hentries]
    exact .above (hmain ▸ hs) ho hn h

end Linearizes

end Arena

namespace Construction

variable {process : Expr → BuildM Expr} {s t : Draft} {l more : List Entry}

/-- The operators recorded so far; no ordering is without keys. -/
structure Draft.Lists (s : Draft) (l : List Entry) : Prop where
  linearizes : s.construction.arena.Linearizes s.model l
  keys : .orderBy [] ∉ s.model.clauses

theorem Step.lists (hp : Extending process) (h : Step process s more t) (hs : s.Lists l) :
    t.Lists (l ++ more) := by
  obtain ⟨hlin, hkeys⟩ := hs
  cases h with
  | process h =>
    rw [List.append_nil]
    exact ⟨hlin.extend (hp _ _ _ _ h), hkeys⟩
  | rename =>
    rw [List.append_nil]
    exact ⟨hlin.extend (Arena.extends_renameSource ..), hkeys⟩
  | source =>
    rw [List.append_nil]
    exact ⟨hlin.extend (Arena.extends_addSource ..), hkeys⟩
  | @wrap m c src generated _ _ horigin =>
    -- the new model has no entries of its own, and its main source ranges over the old model
    have hmodel := (Arena.model?_addModel c.arena m c.arena.models.length).trans (if_pos rfl)
    have hsource :=
      (Arena.source?_addSource (c.arena.addModel m).2 src c.arena.sources.length).trans
      (if_pos rfl)
    have hinner := hlin.extend ((c.arena.extends_addModel m).trans (Arena.extends_addSource _ src))
    refine ⟨.above hsource horigin ?_ hinner, by simp [QueryModel.ofSource]⟩
    exact (Arena.extends_addSource _ src).model? hmodel
  | clause _ new hnew hlast =>
    refine ⟨hlin.append rfl (QueryModel.entries_addClause hlast new), ?_⟩
    simpa [QueryModel.addClause, hkeys] using hnew.symm
  | select => exact ⟨hlin.append rfl (List.append_nil _).symm, hkeys⟩
  | ordering _ key hends =>
    obtain ⟨-, front, keys, hclauses⟩ := clauses_of_endsInOrdering hends
    refine ⟨hlin.append rfl (entries_extendOrdering hends hkeys key), ?_⟩
    rw [hclauses] at hkeys
    simpa [hclauses, extendOrdering_append] using fun h => hkeys (List.mem_append_left _ h)
  | operator _ op => exact ⟨hlin.append rfl (QueryModel.entries_addOperator _ op), hkeys⟩
  | path _ hops =>
    have hmap := congrArg List.reverse (entries_extendInclude? hops)
    refine ⟨hlin.append rfl ?_, hkeys⟩
    simp only [← List.map_reverse, List.reverse_reverse] at hmap
    simp [QueryModel.entries, List.flatMap_def, hmap]

theorem Run.lists (hp : Extending process) (h : Run process s more t) (hs : s.Lists l) :
    t.Lists (l ++ more) := by
  induction h generalizing l with
  | refl => simpa using hs
  | step hstep _ ih =>
    rw [← List.append_assoc]
    exact ih (hstep.lists hp hs)

end Construction

namespace Builder

open Construction

/-- Construction keeps the order of the operators and loses none. For a chain over an entity type,
the models of the built query have one linearization, and it records the operators of the chain from
the source outward: each with what has become of its arguments. -/
theorem build_linearizes (b : Builder) (entity : String) {limit : Nat} {e : Expr}
    {built : BuiltQuery}
    (hroot : (b.registry.chain e).1 = .entityQuery entity) (hbuilt : b.build limit e = .ok built) :
    ∃ m entries, built.arena.model? built.root = some m ∧
      (∀ l, built.arena.Linearizes m l ↔ l = entries) ∧
      List.Forall₂ (Realizes (b.processor limit) built.arena)
        ((b.registry.chain e).2.flatMap (·.contributions)) entries := by
  obtain ⟨⟨m, c⟩, hchain, hbuilt⟩ := bind_eq_ok.mp hbuilt
  obtain rfl := Except.ok.inj hbuilt
  have hp := b.processor_extending limit
  rw [buildChain_eq, hroot] at hchain
  obtain ⟨m₀, c₀, hstart, hcalls⟩ := bind_ok hchain
  obtain ⟨s, c₁, hs, hstart⟩ := bind_ok hstart
  obtain ⟨rfl, rfl⟩ := Prod.mk.inj (Except.ok.inj hs)
  obtain ⟨rfl, rfl⟩ := Prod.mk.inj (Except.ok.inj hstart)
  obtain ⟨entries, hrun, hrealizes, -⟩ := applyAll_records hp hcalls
  have hsource := Arena.source?_addSource Arena.empty
    ⟨"<generated>_" ++ toString 0, .mainFrom, .entityQuery entity, some entity⟩ 0
  have hlists := hrun.lists hp ⟨.root hsource (by simp), by simp [QueryModel.ofSource]⟩
  have hgrown := c.arena.extends_addModel m
  have hlin : (c.arena.addModel m).2.Linearizes m entries := hlists.linearizes.extend hgrown
  refine ⟨m, entries, by simp [Arena.model?], fun l => ⟨hlin.unique, ?_⟩, ?_⟩
  · rintro rfl
    exact hlin
  · exact hrealizes.imp fun _ _ h => h.extend hgrown

theorem kinds_of_realizes {process : Expr → BuildM Expr} {a : Arena} {calls : List OperatorCall}
    {entries : List Entry} (h : List.Forall₂ (Realizes process a) calls entries) :
    entries.map (·.kind) = calls.map (·.kind) := by
  induction h with
  | nil => rfl
  | cons hfirst _ ih => rw [List.map_cons, List.map_cons, hfirst.kind, ih]

/-- An open order of the first customers that are premium customers. -/
def premiumOrder : Expr :=
  let read (x type name : String) : Expr := .member (.var x) ⟨type, name⟩
  let active : Expr :=
    .filtered (.entityQuery "Customer") (.lambda ["c"] (read "c" "Customer" "Active"))
  let premium : Expr := .filtered (.take active (.constant (.int 10)))
    (.lambda ["c"] (read "c" "Customer" "Premium"))
  let ordered : Expr := .thenBy (.orderBy premium (.lambda ["c"] (read "c" "Customer" "Name")))
    (.lambda ["c"] (read "c" "Customer" "Id"))
  let orders : Expr :=
    .selectMany (.asNoTracking ordered) (.lambda ["c"] (read "c" "Customer" "Orders"))
    (.lambda ["c", "o"] (.var "o"))
  .operator "First" (.distinct orders) [.quote (.lambda ["o"] (read "o" "Order" "Open"))]

/-- Conditions after `Take` and after `Distinct` start new models, but the order is that of the
chain. -/
theorem build_linearizes_premiumOrder :
    let b : Builder := .standard .standard 8 ⟨⟨0, 0⟩, fun _ => .empty⟩
    ∃ built m entries, b.build 8 premiumOrder = .ok built ∧
      built.arena.model? built.root = some m ∧ built.arena.Linearizes m entries ∧
      entries.map (·.kind) = [.filter, .take, .filter, .orderBy false, .thenBy false, .selectMany,
        .distinct, .filter, .element .first false] := by
  intro b
  have hok : (b.build 8 premiumOrder).isOk = true := by decide +kernel
  obtain ⟨built, hbuilt⟩ := exists_of_isOk hok
  obtain ⟨m, entries, hm, hlin, hrealizes⟩ := b.build_linearizes "Customer" (by decide) hbuilt
  refine ⟨built, m, entries, hbuilt, hm, (hlin entries).mpr rfl, ?_⟩
  rw [kinds_of_realizes hrealizes]
  decide

end Builder

end QueryTree
