import Mathlib.Data.List.Chain
import QueryTree.Proofs.Linearization
import QueryTree.Proofs.OperatorInvariants

/-! Groupings and what comes after them. `All` and `GroupBy` have lambdas that range over items.
After a grouping the items are groups, so these operators belong to a model over the grouped one.
Construction starts such a model if the grouping is the last operator, directives apart. If another
operator has come between, the grouping is covered and not seen any more. -/

namespace QueryTree

/-! ### Operators after a grouping -/

/-- Operators with a lambda that ranges over the items. -/
def OperatorKind.rangesOverItems : OperatorKind → Bool
  | all | groupBy => true
  | _ => false

namespace ResultOperator

/-- The second operator does not range over the items that the first one has grouped. -/
def Precedes (op next : ResultOperator) : Prop :=
  op.isGrouping = true → next.rangesOverItems = false

instance : DecidableRel Precedes := fun op next =>
  inferInstanceAs (Decidable (op.isGrouping = true → next.rangesOverItems = false))

theorem isSome_source? (op : ResultOperator) : op.source?.isSome = op.isGrouping := by
  cases op <;> rfl

theorem rangesOverItems_kind (op : ResultOperator) :
    op.kind.rangesOverItems = op.rangesOverItems := by
  cases op <;> rfl

theorem isDirective_of_rangesOverItems {op : ResultOperator} (h : op.rangesOverItems = true) :
    op.isDirective = false := by
  cases op <;> first | rfl | cases h

theorem rangesOverItems_of_entries {op : ResultOperator}
    (h : ∀ entry ∈ op.entries, entry.kind.rangesOverItems = false) :
    op.rangesOverItems = false := by
  by_contra hranges
  rw [Bool.not_eq_false] at hranges
  simp [entries, isDirective_of_rangesOverItems hranges, rangesOverItems_kind, hranges] at h

theorem isDirective_of_isGrouping {op : ResultOperator} (h : op.isGrouping = true) :
    op.isDirective = false := by
  cases op <;> first | rfl | cases h

end ResultOperator

/-- No operator of the model ranges over items that an earlier one has grouped. -/
def QueryModel.Separated (m : QueryModel) : Prop := m.operators.Pairwise ResultOperator.Precedes

instance : DecidablePred QueryModel.Separated := fun m =>
  inferInstanceAs (Decidable (m.operators.Pairwise ResultOperator.Precedes))

/-- Where the grouping of a model stands. -/
inductive Grouping where
  | absent
  /-- The items are groups. -/
  | outermost
  /-- Another operator has been applied to the groups. -/
  | covered
  deriving DecidableEq

/-- The grouping of a model that gets one more operator. -/
def Grouping.add (g : Grouping) (op : ResultOperator) : Grouping :=
  if op.isDirective then g
  else if op.isGrouping then .outermost
  else if g = .outermost then .covered
  else g

def QueryModel.grouping (m : QueryModel) : Grouping :=
  if m.groupSource?.isSome then .outermost
  else if m.operators.any (·.isGrouping) then .covered
  else .absent

namespace QueryModel

variable {m : QueryModel}

theorem lastOperator?_eq (m : QueryModel) :
    m.lastOperator? = (m.operators.filter (!·.isDirective)).getLast? := by
  rw [lastOperator?, List.getLast?_eq_head?_reverse, ← List.filter_reverse, List.head?_filter]

theorem lastOperator?_addOperator (m : QueryModel) (op : ResultOperator) :
    (m.addOperator op).lastOperator? = if op.isDirective then m.lastOperator? else some op := by
  cases h : op.isDirective <;> simp [lastOperator?, addOperator, h]

theorem any_isGrouping_filter (ops : List ResultOperator) :
    (ops.filter (!·.isDirective)).any (·.isGrouping) = ops.any (·.isGrouping) := by
  rw [List.any_filter]
  congr 1
  funext op
  cases op <;> rfl

theorem grouping_eq_of_filter {n : QueryModel}
    (h : n.operators.filter (!·.isDirective) = m.operators.filter (!·.isDirective)) :
    n.grouping = m.grouping := by
  rw [grouping, grouping, groupSource?, groupSource?, lastOperator?_eq, lastOperator?_eq, h,
    ← any_isGrouping_filter n.operators, h, any_isGrouping_filter]

theorem grouping_of_lastOperator? (h : m.lastOperator? = none) : m.grouping = .absent := by
  have hbare : m.operators.filter (!·.isDirective) = [] := by
    rwa [lastOperator?_eq, List.getLast?_eq_none_iff] at h
  simp [grouping, groupSource?, h, ← any_isGrouping_filter m.operators, hbare]

theorem any_isGrouping_of_groupSource? (h : m.groupSource?.isSome = true) :
    m.operators.any (·.isGrouping) = true := by
  obtain ⟨s, hs⟩ := Option.isSome_iff_exists.mp h
  obtain ⟨op, hlast, hs⟩ := Option.bind_eq_some_iff.mp hs
  have hop : op ∈ m.operators := List.mem_reverse.mp (List.mem_of_find?_eq_some hlast)
  refine List.any_eq_true.mpr ⟨op, hop, ?_⟩
  rw [← op.isSome_source?, hs, Option.isSome_some]

theorem grouping_eq_outermost_iff : m.grouping = .outermost ↔ m.groupSource?.isSome = true := by
  unfold grouping
  split
  next hgroups => simp [hgroups]
  next hgroups => split <;> simp [hgroups]

theorem grouping_eq_absent_iff :
    m.grouping = .absent ↔ ∀ op ∈ m.operators, op.isGrouping = false := by
  have hany : m.operators.any (·.isGrouping) = false ↔
      ∀ op ∈ m.operators, op.isGrouping = false := by
    simp
  rw [← hany, grouping]
  split
  next hgroups => simp [any_isGrouping_of_groupSource? hgroups]
  next => split <;> simp_all

theorem grouping_addOperator (m : QueryModel) (op : ResultOperator) :
    (m.addOperator op).grouping = m.grouping.add op := by
  cases hd : op.isDirective with
  | true =>
    rw [Grouping.add, if_pos hd]
    exact grouping_eq_of_filter (by simp [addOperator, hd])
  | false =>
    have hgroups : (m.addOperator op).groupSource?.isSome = op.isGrouping := by
      rw [groupSource?, lastOperator?_addOperator, hd, ← op.isSome_source?]
      rfl
    have hany : (m.addOperator op).operators.any (·.isGrouping) =
        (m.operators.any (·.isGrouping) || op.isGrouping) := by
      simp [addOperator]
    cases hg : op.isGrouping with
    | true => simp [grouping, Grouping.add, hgroups, hd, hg]
    | false =>
      simp only [Grouping.add, grouping, hgroups, hany, hd, hg, Bool.or_false,
        Bool.false_eq_true, if_false]
      by_cases hsome : m.groupSource?.isSome = true
      · simp [hsome, any_isGrouping_of_groupSource? hsome]
      · simp only [hsome]
        split <;> simp_all

end QueryModel

/-! ### Calls -/

/-- Operators that models record as clauses. -/
def OperatorKind.isClause : OperatorKind → Bool
  | filter | selectMany | join _ | orderBy _ | thenBy _ => true
  | _ => false

namespace OperatorCall

theorem kind_of_mem_contributions {call call' : OperatorCall} (h : call' ∈ call.contributions) :
    call'.kind = call.kind ∨ call'.kind = .filter := by
  obtain ⟨method, kind, args⟩ := call
  cases kind with
  | select | tracking | tag | ignoreFilters | includeLambda | includeString | thenInclude => cases h
  | element | count | any =>
    rcases List.mem_append.mp h with h | h
    · split at h
      · cases h
      · obtain rfl := List.mem_singleton.mp h
        exact .inr rfl
    · obtain rfl := List.mem_singleton.mp h
      exact .inl rfl
  | _ =>
    obtain rfl := List.mem_singleton.mp h
    exact .inl rfl

/-- The call has a lambda in the place of a clause. Clauses come before operators, so the call finds
or gets a model without operators. -/
def takesClause (call : OperatorCall) : Bool :=
  match call.kind with
  | .filter | .select | .selectMany | .join _ | .orderBy _ | .thenBy _ => true
  | .element .. | .count _ | .any | .aggregate _ => !call.args.isEmpty
  | _ => false

/-- What a call makes of a grouping. -/
def regroup (call : OperatorCall) (g : Grouping) : Grouping :=
  if call.takesClause then .absent
  else if call.kind.isDirective then g
  else if call.kind = .groupBy then .outermost
  else if g = .outermost then if call.kind = .all then .absent else .covered
  else g

end OperatorCall

/-- Whether a lambda of some call ranges over items that an earlier call has grouped, because the
grouping is covered by then. -/
def Grouping.mixed : Grouping → List OperatorCall → Bool
  | _, [] => false
  | g, call :: calls => call.kind.rangesOverItems && g == .covered || mixed (call.regroup g) calls

/-! ### Models of a chain -/

namespace Arena

/-- The models that a chain is made of: that of its last operators, then, if its main source ranges
over a subquery, those of the subquery. -/
inductive Spine (a : Arena) : QueryModel → List QueryModel → Prop where
  | root {m : QueryModel} {src : QuerySource} (hs : a.source? m.mainFrom = some src)
      (ho : ∀ j, src.origin ≠ .subQuery j) : Spine a m [m]
  | above {m n : QueryModel} {src : QuerySource} {j : ModelId} {models : List QueryModel}
      (hs : a.source? m.mainFrom = some src) (ho : src.origin = .subQuery j)
      (hn : a.model? j = some n) (h : Spine a n models) : Spine a m (m :: models)

namespace Spine

variable {a b : Arena} {m n : QueryModel} {models models' : List QueryModel}

theorem unique (h : a.Spine m models) (h' : a.Spine m models') : models' = models := by
  induction h generalizing models' with
  | root hs ho =>
    cases h' with
    | root => rfl
    | above hs' ho' =>
      obtain rfl := Option.some.inj (hs.symm.trans hs')
      exact absurd ho' (ho _)
  | above hs ho hn _ ih =>
    cases h' with
    | root hs' ho' =>
      obtain rfl := Option.some.inj (hs.symm.trans hs')
      exact absurd ho (ho' _)
    | above hs' ho' hn' h' =>
      obtain rfl := Option.some.inj (hs.symm.trans hs')
      obtain rfl := Expr.subQuery.inj (ho.symm.trans ho')
      obtain rfl := Option.some.inj (hn.symm.trans hn')
      rw [ih h']

theorem extend (h : a.Spine m models) (hab : a.Extends b) : b.Spine m models := by
  induction h with
  | root hs ho =>
    obtain ⟨src', hs', heq⟩ := hab.origins _ _ hs
    exact .root hs' (heq ▸ ho)
  | above hs ho hn _ ih =>
    obtain ⟨src', hs', heq⟩ := hab.origins _ _ hs
    exact .above hs' (heq.trans ho) (hab.model? hn) ih

theorem replace (h : a.Spine m models) (hmain : n.mainFrom = m.mainFrom) :
    ∃ below, models = m :: below ∧ a.Spine n (n :: below) := by
  cases h with
  | root hs ho => exact ⟨[], rfl, .root (hmain ▸ hs) ho⟩
  | above hs ho hn h => exact ⟨_, rfl, .above (hmain ▸ hs) ho hn h⟩

end Spine

end Arena

namespace Construction

open ResultOperator

variable {process : Expr → BuildM Expr} {m n : QueryModel} {c d : Construction} {s t : Draft}
  {l : List Entry} {p q : Prop}

theorem filter_extendInclude? {names : List String} {ops ops' : List ResultOperator}
    (h : extendInclude? names ops = some ops') :
    ops'.filter (!·.isDirective) = ops.filter (!·.isDirective) := by
  fun_induction extendInclude? names ops generalizing ops' with
  | case1 => cases h
  | case2 source front ops =>
    obtain rfl := Option.some.inj h
    rfl
  | case3 op ops _ ih =>
    obtain ⟨ops'', hops, rfl⟩ := Option.map_eq_some_iff.mp h
    rw [List.filter_cons, List.filter_cons, ih hops]

theorem filter_reverse_extendInclude? {names : List String} {ops ops' : List ResultOperator}
    (h : extendInclude? names ops.reverse = some ops') :
    ops'.reverse.filter (!·.isDirective) = ops.filter (!·.isDirective) := by
  rw [List.filter_reverse, filter_extendInclude? h, List.filter_reverse, List.reverse_reverse]

/-! ### Next to each other -/

/-- An operator that ranges over items does not come next after a grouping. -/
theorem precedes_invariant :
    OperatorInvariant fun _ ops => (ops.filter (!·.isDirective)).IsChain Precedes where
  later _ h := h
  nil _ := .nil
  add {a m op} hitems _ h := by
    cases hdirective : op.isDirective with
    | true => simpa [hdirective] using h
    | false =>
      have hnew : (m.operators ++ [op]).filter (!·.isDirective) =
          m.operators.filter (!·.isDirective) ++ [op] := by
        simp [hdirective]
      rw [hnew]
      refine List.isChain_append.mpr ⟨h, .singleton _, fun last hlast next hnext hgrouping => ?_⟩
      obtain rfl : op = next := Option.some.inj hnext
      by_contra hranges
      have hnone : last.source? = none := by
        have hnone := hitems (by simpa using hranges)
        rwa [QueryModel.groupSource?, QueryModel.lastOperator?_eq, hlast, Option.bind_some] at hnone
      have hsome := last.isSome_source?
      simp [hnone, hgrouping] at hsome
  extendInclude hops h := by rwa [filter_reverse_extendInclude? hops]

/-! ### In one model -/

theorem separated_addOperator (m : QueryModel) (op : ResultOperator) :
    (m.addOperator op).Separated ↔
      m.Separated ∧ (op.rangesOverItems = true → m.grouping = .absent) := by
  simp only [QueryModel.Separated, QueryModel.addOperator, List.pairwise_append,
    List.pairwise_singleton,
    List.mem_singleton, forall_eq, true_and, QueryModel.grouping_eq_absent_iff, Precedes]
  refine and_congr_right fun _ => ⟨fun h hop x hx => ?_, fun h x hx hgrouping => ?_⟩
  · by_contra hgrouping
    simp [h x hx (by simpa using hgrouping)] at hop
  · by_contra hop
    simp [h (by simpa using hop) x hx] at hgrouping

theorem separated_iff_filter :
    m.Separated ↔ (m.operators.filter (!·.isDirective)).Pairwise Precedes := by
  rw [QueryModel.Separated, List.pairwise_filter]
  apply List.Pairwise.iff
  intro op next
  refine ⟨fun h _ _ => h, fun h hgrouping => ?_⟩
  cases hnext : next.isDirective with
  | true => cases next <;> first | rfl | cases hnext
  | false => exact h (by simp [isDirective_of_isGrouping hgrouping]) (by simp [hnext]) hgrouping

/-- The models of the chain under construction are all separated if and only if `p` holds. -/
def Draft.Separates (s : Draft) (p : Prop) : Prop :=
  ∃ models, s.construction.arena.Spine s.model models ∧ ((∀ n ∈ models, n.Separated) ↔ p)

theorem Draft.Separates.replace (hs : Draft.Separates ⟨m, c⟩ p) (hmain : n.mainFrom = m.mainFrom)
    (hn : n.Separated ↔ m.Separated ∧ q) : Draft.Separates ⟨n, c⟩ (p ∧ q) := by
  obtain ⟨models, hspine, hp⟩ := hs
  obtain ⟨below, rfl, hspine'⟩ := Arena.Spine.replace hspine hmain
  refine ⟨n :: below, hspine', ?_⟩
  rw [← hp, List.forall_mem_cons, List.forall_mem_cons, hn, and_right_comm]

theorem Draft.Separates.same (hs : Draft.Separates ⟨m, c⟩ p) (hmain : n.mainFrom = m.mainFrom)
    (hn : n.Separated ↔ m.Separated) : Draft.Separates ⟨n, c⟩ p := by
  simpa using hs.replace (q := True) hmain (by simpa using hn)

theorem Draft.Separates.extend (hs : Draft.Separates ⟨m, c⟩ p) (h : c.arena.Extends d.arena) :
    Draft.Separates ⟨m, d⟩ p := by
  obtain ⟨models, hspine, hp⟩ := hs
  exact ⟨models, hspine.extend h, hp⟩

/-- Steps that record no lambda over items neither join nor part anything. -/
theorem Step.separates (hp : Extending process) (h : Step process s l t)
    (hl : ∀ entry ∈ l, entry.kind.rangesOverItems = false) (hs : s.Separates p) :
    t.Separates p := by
  cases h with
  | process h => exact hs.extend (hp _ _ _ _ h)
  | rename => exact hs.extend (Arena.extends_renameSource ..)
  | source => exact hs.extend (Arena.extends_addSource ..)
  | @wrap m c src generated _ _ horigin =>
    -- The models of the chain get one more, which has no operators yet.
    obtain ⟨models, hspine, hmodels⟩ := hs
    have hmodel := (Arena.model?_addModel c.arena m c.arena.models.length).trans (if_pos rfl)
    have hsource :=
      (Arena.source?_addSource (c.arena.addModel m).2 src c.arena.sources.length).trans
      (if_pos rfl)
    have hinner :=
      hspine.extend ((c.arena.extends_addModel m).trans (Arena.extends_addSource _ src))
    refine ⟨_, .above hsource horigin ((Arena.extends_addSource _ src).model? hmodel) hinner, ?_⟩
    simpa [QueryModel.Separated, QueryModel.ofSource] using hmodels
  | clause | select | ordering => exact hs.same rfl Iff.rfl
  | operator _ op =>
    refine hs.same rfl ?_
    simp [separated_addOperator, rangesOverItems_of_entries hl]
  | path _ hops =>
    refine hs.same rfl ?_
    rw [separated_iff_filter, separated_iff_filter, filter_reverse_extendInclude? hops]

theorem Run.separates (hp : Extending process) (h : Run process s l t)
    (hl : ∀ entry ∈ l, entry.kind.rangesOverItems = false) (hs : s.Separates p) :
    t.Separates p := by
  induction h with
  | refl => exact hs
  | step hstep _ ih =>
    rw [List.forall_mem_append] at hl
    exact ih hl.2 (hstep.separates hp hl.1 hs)

/-! ### Operators -/

theorem itemPosition_grouping (h : itemPosition m c = .ok (n, d)) :
    n.grouping = if m.grouping = .outermost then .absent else m.grouping := by
  unfold itemPosition at h
  split at h
  next hgroups =>
    have houtermost := QueryModel.grouping_eq_outermost_iff.mpr hgroups
    have hlast : m.lastOperator?.isSome = true := by
      cases hlast : m.lastOperator? with
      | none => simp [QueryModel.groupSource?, hlast] at hgroups
      | some op => rfl
    rw [houtermost, if_pos rfl]
    exact QueryModel.grouping_of_lastOperator? (wrap_run pure hlast h).2
  next hgroups =>
    obtain ⟨rfl, -⟩ := Prod.mk.inj (Except.ok.inj h)
    rw [if_neg (by rwa [QueryModel.grouping_eq_outermost_iff])]

/-- A lambda over items joins what has been grouped before only if the grouping is covered. -/
theorem items_separates (hp : Extending process) {m₁ : QueryModel} {c₁ : Construction}
    {op : ResultOperator} (hposition : itemPosition m c = .ok (m₁, c₁))
    (hrun : Run process ⟨m₁, c₁⟩ [] ⟨m₁, d⟩) (hop : op.rangesOverItems = true)
    (hs : Draft.Separates ⟨m, c⟩ p) :
    Draft.Separates ⟨m₁.addOperator op, d⟩ (p ∧ m.grouping ≠ .covered) := by
  have hwrap := (itemPosition_run process hposition).1
  refine ((hwrap.trans hrun).separates hp (by simp) hs).replace rfl ?_
  rw [separated_addOperator, itemPosition_grouping hposition]
  cases m.grouping <;> simp [hop]

theorem apply_separates (hp : Extending process) {call : OperatorCall}
    (h : apply process m call c = .ok (n, d)) (hs : Draft.Separates ⟨m, c⟩ p) :
    Draft.Separates ⟨n, d⟩ (p ∧ ¬ (call.kind.rangesOverItems = true ∧ m.grouping = .covered)) := by
  obtain ⟨method, kind, args⟩ := call
  cases hkind : kind.rangesOverItems with
  | false =>
    obtain ⟨entries, hrun, hrealizes, -⟩ := apply_records hp h
    have hentries : ∀ entry ∈ entries, entry.kind.rangesOverItems = false := by
      intro entry hentry
      obtain ⟨call, hcall, hrealizes⟩ := exists_of_forall₂ hrealizes.flip hentry
      rw [hrealizes.kind]
      rcases OperatorCall.kind_of_mem_contributions hcall with hsame | hfilter
      · rwa [hsame]
      · rw [hfilter]
        rfl
    simpa using hrun.separates hp hentries hs
  | true =>
    cases kind with
    | all =>
      obtain ⟨arg, m₁, c₁, predicate, -, hposition, hrun, -, rfl⟩ := all_run h
      simpa using items_separates hp hposition hrun rfl hs
    | groupBy =>
      obtain ⟨key, element, -, h⟩ := groupByArgs_ok h
      obtain ⟨m₁, c₁, key, item, s, hposition, hrun, -, -, -, rfl⟩ := groupBy_run h
      simpa using items_separates hp hposition hrun rfl hs
    | _ => cases hkind

/-- After a clause, and as long as no operator is recorded, the model has no operators. -/
theorem Step.lastOperator?_none (h : Step process s l t)
    (hl : ∀ entry ∈ l, entry.kind.isClause = true)
    (hs : l ≠ [] ∨ s.model.lastOperator? = none) : t.model.lastOperator? = none := by
  cases h with
  | process | rename | source => exact hs.resolve_left (by simp)
  | wrap => rfl
  | clause _ _ _ hlast | select _ _ hlast => exact hlast
  | ordering _ _ hends => exact (clauses_of_endsInOrdering hends).1
  | operator _ op =>
    cases hdirective : op.isDirective with
    | true =>
      rw [QueryModel.lastOperator?_addOperator, if_pos hdirective]
      exact hs.resolve_left (by simp [ResultOperator.entries, hdirective])
    | false =>
      have hclause := hl ⟨op.kind, op.targetType?, op.expressions.map .inl⟩
        (by simp [ResultOperator.entries, hdirective])
      cases op <;> cases hclause
  | path _ hops =>
    rw [QueryModel.lastOperator?_eq, filter_reverse_extendInclude? hops,
      ← QueryModel.lastOperator?_eq]
    exact hs.resolve_left (by simp)

theorem Run.lastOperator?_none (h : Run process s l t)
    (hl : ∀ entry ∈ l, entry.kind.isClause = true)
    (hs : l ≠ [] ∨ s.model.lastOperator? = none) : t.model.lastOperator? = none := by
  induction h with
  | refl => exact hs.resolve_left (by simp)
  | @step s t u l l' hstep _ ih =>
    rw [List.forall_mem_append] at hl
    refine ih hl.2 ?_
    -- A step that records nothing may leave operators behind, but then a clause is still to come.
    by_cases hnil : l = []
    · subst hnil
      exact hs.imp_right fun hnone => hstep.lastOperator?_none (by simp) (.inr hnone)
    · exact .inr (hstep.lastOperator?_none hl.1 (.inl hnil))

theorem lastOperator?_of_records {call : OperatorCall} {args : List Expr}
    (h : Records process ⟨m, c⟩ [call] args ⟨n, d⟩) (hkind : call.kind.isClause = true) :
    n.lastOperator? = none := by
  obtain ⟨entries, hrun, hrealizes, -⟩ := h
  cases hrealizes with
  | cons hfirst hnil =>
    cases hnil
    refine hrun.lastOperator?_none ?_ (.inl (by simp))
    simpa [hfirst.kind] using hkind

theorem grouping_appended (m : QueryModel) {call : OperatorCall} {op : ResultOperator}
    (hclause : call.takesClause = false) (hitems : call.kind.rangesOverItems = false)
    (hdirective : op.isDirective = call.kind.isDirective) (hgrouping : op.isGrouping = false) :
    (m.addOperator op).grouping = call.regroup m.grouping := by
  have hgroupBy : call.kind ≠ .groupBy := by
    intro hkind
    simp [hkind, OperatorKind.rangesOverItems] at hitems
  have hall : call.kind ≠ .all := by
    intro hkind
    simp [hkind, OperatorKind.rangesOverItems] at hitems
  simp [QueryModel.grouping_addOperator, Grouping.add, OperatorCall.regroup, hclause, hdirective,
    hgrouping, hgroupBy, hall]

/-- An operator after an optional lambda in the place of a clause. -/
theorem prepared_regroups {call : OperatorCall} {op : ResultOperator}
    (prepare : QueryModel → Method → Option Expr → BuildM QueryModel)
    (hnone : prepare m call.method none = pure m)
    (hsome : ∀ {arg m₁ c₁}, prepare m call.method (some arg) c = .ok (m₁, c₁) →
      m₁.lastOperator? = none)
    (hclause : call.takesClause = !call.args.isEmpty) (hitems : call.kind.rangesOverItems = false)
    (hdirective : op.isDirective = call.kind.isDirective) (hgrouping : op.isGrouping = false)
    (h : (do
      let o ← optionalArg call.method call.args
      let m ← prepare m call.method o
      pure (m.addOperator op)) c = .ok (n, d)) : n.grouping = call.regroup m.grouping := by
  obtain ⟨o, c₁, hoptional, h⟩ := bind_ok h
  obtain ⟨rfl, hargs⟩ := optionalArg_ok hoptional
  obtain ⟨m₁, c₂, hm₁, h⟩ := bind_ok h
  obtain ⟨rfl, rfl⟩ := Prod.mk.inj (Except.ok.inj h)
  cases o with
  | none =>
    rw [hnone] at hm₁
    obtain ⟨rfl, rfl⟩ := Prod.mk.inj (Except.ok.inj hm₁)
    exact grouping_appended m (by simp [hclause, hargs]) hitems hdirective hgrouping
  | some arg =>
    have habsent := QueryModel.grouping_of_lastOperator? (hsome hm₁)
    simp [QueryModel.grouping_addOperator, habsent, Grouping.add, hgrouping,
      OperatorCall.regroup, hclause, hargs]

/-- The place of the grouping after a call depends on nothing but its place before. -/
theorem apply_regroups (hp : Extending process) {call : OperatorCall}
    (h : apply process m call c = .ok (n, d)) : n.grouping = call.regroup m.grouping := by
  obtain ⟨method, kind, args⟩ := call
  cases kind with
  | filter | selectMany | join | orderBy | thenBy =>
    exact QueryModel.grouping_of_lastOperator? (lastOperator?_of_records (apply_records hp h) rfl)
  | select =>
    obtain ⟨arg, c₁, hone, h⟩ := bind_ok h
    obtain ⟨m₁, e, -, hlast, -, rfl⟩ := clauseLambda_run (fun m e => { m with select := e }) h
    exact QueryModel.grouping_of_lastOperator? hlast
  | groupBy =>
    obtain ⟨key, element, -, h⟩ := groupByArgs_ok h
    obtain ⟨m₁, c₁, key, item, s, -, -, -, -, -, rfl⟩ := groupBy_run h
    exact QueryModel.grouping_addOperator ..
  | all =>
    obtain ⟨arg, m₁, c₁, predicate, -, hposition, -, -, rfl⟩ := all_run h
    rw [QueryModel.grouping_addOperator, itemPosition_grouping hposition]
    cases m.grouping <;> rfl
  | element | count | any =>
    exact prepared_regroups (filterIf process) rfl
      (fun hsome => lastOperator?_of_records (filter_records hsome) rfl) rfl rfl rfl rfl h
  | aggregate =>
    refine prepared_regroups (selectIf process) rfl (fun hsome => ?_) rfl rfl rfl rfl h
    obtain ⟨m₁, e, -, hlast, -, rfl⟩ := clauseLambda_run (fun m e => { m with select := e }) hsome
    exact hlast
  | take | skip | contains | combine =>
    obtain ⟨arg, c₁, -, h⟩ := bind_ok h
    obtain ⟨e, c₂, -, h⟩ := bind_ok h
    obtain ⟨rfl, -⟩ := Prod.mk.inj (Except.ok.inj h)
    exact grouping_appended m rfl rfl rfl rfl
  | distinct | reverse | tracking | ignoreFilters =>
    obtain ⟨u, c₁, -, h⟩ := bind_ok h
    obtain ⟨rfl, -⟩ := Prod.mk.inj (Except.ok.inj h)
    exact grouping_appended m rfl rfl rfl rfl
  | cast | ofType =>
    obtain ⟨u, c₁, -, h⟩ := bind_ok h
    obtain ⟨type, c₂, -, h⟩ := bind_ok h
    obtain ⟨rfl, -⟩ := Prod.mk.inj (Except.ok.inj h)
    exact grouping_appended m rfl rfl rfl rfl
  | defaultIfEmpty =>
    obtain ⟨o, c₁, -, h⟩ := bind_ok h
    cases o with
    | none =>
      obtain ⟨rfl, -⟩ := Prod.mk.inj (Except.ok.inj h)
      exact grouping_appended m rfl rfl rfl rfl
    | some arg =>
      obtain ⟨e, c₂, -, h⟩ := bind_ok h
      obtain ⟨rfl, -⟩ := Prod.mk.inj (Except.ok.inj h)
      exact grouping_appended m rfl rfl rfl rfl
  | tag =>
    obtain ⟨arg, c₁, -, h⟩ := bind_ok h
    obtain ⟨-, text, -, rfl⟩ := tagWith_ok h
    exact grouping_appended m rfl rfl rfl rfl
  | includeLambda =>
    obtain ⟨arg, c₁, -, h⟩ := bind_ok h
    obtain ⟨lambda, c₂, -, h⟩ := bind_ok h
    obtain ⟨path, c₃, -, h⟩ := bind_ok h
    obtain ⟨u, c₄, -, h⟩ := bind_ok h
    obtain ⟨rfl, -⟩ := Prod.mk.inj (Except.ok.inj h)
    exact grouping_appended m rfl rfl rfl rfl
  | includeString =>
    obtain ⟨arg, c₁, -, h⟩ := bind_ok h
    obtain ⟨-, path, -, rfl⟩ := includeString_ok h
    exact grouping_appended m rfl rfl rfl rfl
  | thenInclude =>
    obtain ⟨arg, c₁, -, h⟩ := bind_ok h
    obtain ⟨lambda, path, ops, -, -, hops, rfl⟩ := thenInclude_ok h
    exact QueryModel.grouping_eq_of_filter (filter_reverse_extendInclude? hops)
  | custom =>
    obtain ⟨es, c₁, -, h⟩ := bind_ok h
    obtain ⟨rfl, -⟩ := Prod.mk.inj (Except.ok.inj h)
    exact grouping_appended m rfl rfl rfl rfl

theorem start_entityQuery {entity : String}
    (h : start process (.entityQuery entity) c = .ok (m, d)) :
    ∃ s src, m = .ofSource s ∧ d.arena.source? s = some src ∧ src.origin = .entityQuery entity := by
  obtain ⟨s, c₁, hs, h⟩ := bind_ok h
  obtain ⟨rfl, rfl⟩ := Prod.mk.inj (Except.ok.inj hs)
  obtain ⟨rfl, rfl⟩ := Prod.mk.inj (Except.ok.inj h)
  exact ⟨_, _, rfl, (Arena.source?_addSource ..).trans (if_pos rfl), rfl⟩

theorem applyAll_separates (hp : Extending process) {calls : List OperatorCall}
    (h : applyAll process m calls c = .ok (n, d)) (hs : Draft.Separates ⟨m, c⟩ p) :
    Draft.Separates ⟨n, d⟩ (p ∧ Grouping.mixed m.grouping calls = false) := by
  induction calls generalizing m c p with
  | nil =>
    obtain ⟨rfl, rfl⟩ := Prod.mk.inj (Except.ok.inj h)
    simpa [Grouping.mixed] using hs
  | cons call calls ih =>
    obtain ⟨m₁, c₁, happly, h⟩ := bind_ok h
    have hrest := ih h (apply_separates hp happly hs)
    rw [apply_regroups hp happly] at hrest
    simpa [Grouping.mixed, and_assoc] using hrest

end Construction

namespace Builder

open Construction ResultOperator

/-- Groupings and lambdas over items in one model. In every model of a built query, an operator with
a lambda over items does not come next after a grouping, directives apart. Operators between the two
can bring them into one model. For a chain over an entity type, the models of the chain are all
separated if and only if no lambda over items comes when a grouping is covered. -/
theorem build_separates_groupings (b : Builder) {limit : Nat} {e : Expr} {built : BuiltQuery}
    (hbuilt : b.build limit e = .ok built) :
    (∀ m ∈ built.arena.models, m.bare.operators.IsChain Precedes) ∧
    ∀ entity, (b.registry.chain e).1 = .entityQuery entity →
      ∃ m models, built.arena.model? built.root = some m ∧
        (∀ l, built.arena.Spine m l ↔ l = models) ∧
        ((∀ n ∈ models, n.Separated) ↔ Grouping.mixed .absent (b.registry.chain e).2 = false) := by
  refine ⟨fun m hm => build_obeys precedes_invariant hbuilt m hm, fun entity hroot => ?_⟩
  obtain ⟨m, c, hchain, rfl⟩ := build_ok_iff.mp hbuilt
  rw [buildChain_eq, hroot] at hchain
  obtain ⟨m₀, c₀, hstart, hcalls⟩ := bind_ok hchain
  obtain ⟨s, src, rfl, hs, horigin⟩ := start_entityQuery hstart
  have hfirst : Draft.Separates ⟨.ofSource s, c₀⟩ True :=
    ⟨_, .root hs (by simp [horigin]), by simp [QueryModel.Separated, QueryModel.ofSource]⟩
  have habsent : (QueryModel.ofSource s).grouping = .absent :=
    QueryModel.grouping_of_lastOperator? rfl
  obtain ⟨models, hspine, hiff⟩ := applyAll_separates (b.processor_extending limit) hcalls hfirst
  have hgrown := hspine.extend (c.arena.extends_addModel m)
  refine ⟨m, models, by simp [Arena.model?, Arena.addModel], fun l => ⟨hgrown.unique, ?_⟩, ?_⟩
  · rintro rfl
    exact hgrown
  · simpa [habsent] using hiff

/-- The customers by city. -/
def byCity : Expr :=
  .groupBy (.entityQuery "Customer") (.lambda ["c"] (.member (.var "c") ⟨"Customer", "City"⟩))

/-- Whether all groups have more than one member. -/
def allLarge (groups : Expr) : Expr :=
  .operator "All" groups
    [.quote (.lambda ["g"]
      (.binary .gt (.member (.var "g") ⟨"Grouping", "Size"⟩) (.constant (.int 1))))]

/-- A directive between grouping and `All` does no harm. -/
theorem build_separates_groupings_byCity :
    let b : Builder := .standard .standard 8 ⟨⟨0, 0⟩, fun _ => .empty⟩
    ∃ built m models, b.build 8 (allLarge (.asNoTracking byCity)) = .ok built ∧
      built.arena.model? built.root = some m ∧ built.arena.Spine m models ∧
      ∀ n ∈ models, n.Separated := by
  intro b
  have hok : (b.build 8 (allLarge (.asNoTracking byCity))).isOk = true := by decide +kernel
  obtain ⟨built, hbuilt⟩ := exists_of_isOk hok
  obtain ⟨m, models, hm, hspine, hiff⟩ :=
    (b.build_separates_groupings hbuilt).2 "Customer" (by decide +kernel)
  exact ⟨built, m, models, hbuilt, hm, (hspine models).mpr rfl, hiff.mpr (by decide +kernel)⟩

/-- With `Take` between grouping and `All` there is one model, and the predicate on groups reads
customers. -/
theorem build_joins_groupings :
    let b : Builder := .standard .standard 8 ⟨⟨0, 0⟩, fun _ => .empty⟩
    ∃ built m, b.build 8 (allLarge (.take byCity (.constant (.int 5)))) = .ok built ∧
      built.arena.model? built.root = some m ∧ ¬ m.Separated ∧
      .all (.binary .gt (.member (.sourceRef m.mainFrom) ⟨"Grouping", "Size"⟩)
        (.constant (.int 1))) ∈
        m.operators := by
  intro b
  have hmodel :
      ((b.build 8 (allLarge (.take byCity (.constant (.int 5))))).toOption.map fun built =>
      built.arena.model? built.root) = some (some ⟨0, [], .sourceRef 0,
        [.groupBy (.member (.sourceRef 0) ⟨"Customer", "City"⟩) (.sourceRef 0) 1,
          .take (.constant (.int 5)),
          .all (.binary .gt (.member (.sourceRef 0) ⟨"Grouping", "Size"⟩)
            (.constant (.int 1)))]⟩) := by
    decide +kernel
  obtain ⟨built, hbuilt, hm⟩ := exists_of_toOption_map hmodel
  exact ⟨built, _, hbuilt, hm, by decide, by simp⟩

end Builder

end QueryTree
