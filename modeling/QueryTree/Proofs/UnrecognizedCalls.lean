import QueryTree.Expr.Chain
import QueryTree.Proofs.OperatorFree
import QueryTree.Proofs.OperatorRecords
import QueryTree.Proofs.ParameterBinding
import QueryTree.Proofs.Substitution

/-! Calls on sequences by methods that are no operators. Construction refuses them at the root of
every chain, however deep it nests; it does not look for them among the arguments of operators. -/

namespace QueryTree

open QueryTree.Expr

theorem Expr.isSequence_substitute {e : Expr} (h : e.isSequence = true) (bindings : Bindings) :
    (e.substitute bindings).isSequence = true := by
  fun_induction Expr.isSequence e with
  | case1 type e ih => exact ih h
  | case2 e ih => exact ih h
  | case3 | case4 => rfl
  | case5 method first rest ih => exact ih h
  | case6 => cases h

namespace Registry

/-- A call without receiver on a sequence, by a method that is no operator. -/
def Unrecognized (r : Registry) (e : Expr) : Prop :=
  ∃ method first rest, e = .staticCall method (first :: rest) ∧ r.lookup method = none ∧
    first.isSequence = true

/-- If the expression is an operator call, its chain does not start with an unrecognized call. -/
def WellRooted (r : Registry) (e : Expr) : Prop :=
  (r.kind? e).isSome = true → ¬ r.Unrecognized (r.chain e).1

variable {r : Registry} {e : Expr}

theorem wellRooted_of_kind? (h : r.kind? e = none) : r.WellRooted e :=
  fun hkind => by simp [h] at hkind

theorem all_wellRooted_of_strip (h : e.strip.All r.WellRooted) : e.All r.WellRooted :=
  all_of_strip (fun _ _ => wellRooted_of_kind? rfl) h

theorem all_wellRooted_of_callFree (h : e.CallFree) : e.All r.WellRooted := by
  refine h.mono fun n hn => wellRooted_of_kind? ?_
  cases n with
  | staticCall method args => exact absurd rfl (hn method args)
  | _ => rfl

/-- Substitution keeps what a chain starts with, unless it is a variable. -/
theorem Unrecognized.chain_substitute (h : r.Unrecognized (r.chain e).1) (bindings : Bindings) :
    r.Unrecognized (r.chain (e.substitute bindings)).1 := by
  fun_induction Registry.chain r e with
  | case1 type e ih => exact ih h
  | case2 e ih => exact ih h
  | case3 method first rest kind hkind ih =>
    simp only [Expr.substitute, Expr.substituteAll, chain, hkind]
    exact ih h
  | case4 method first rest hkind =>
    simp only [Expr.substitute, Expr.substituteAll, chain, hkind]
    obtain ⟨_, _, _, heq, -, hsequence⟩ := h
    obtain ⟨-, hargs⟩ := Expr.staticCall.inj heq
    obtain ⟨rfl, -⟩ := List.cons.inj hargs
    exact ⟨_, _, _, rfl, hkind, isSequence_substitute hsequence bindings⟩
  | case5 e _ _ hcall =>
    obtain ⟨method, first, rest, rfl, -⟩ := h
    exact absurd rfl (hcall method first rest)

theorem all_wellRooted_of_substitute {bindings : Bindings}
    (h : (e.substitute bindings).All r.WellRooted) : e.All r.WellRooted := by
  induction e using Expr.byChildren generalizing bindings with
  | step e ih =>
    by_cases hvar : ∃ x, e = .var x
    · obtain ⟨x, rfl⟩ := hvar
      exact all_iff_children.mpr ⟨wellRooted_of_kind? rfl, by simp [children]⟩
    by_cases hlambda : ∃ ps body, e = .lambda ps body
    · obtain ⟨ps, body, rfl⟩ := hlambda
      obtain ⟨ps', inner, heq, -⟩ := Expr.substitute_lambda ps body bindings
      rw [heq] at h
      have hinner : (body.substitute inner).All r.WellRooted := h.child (by simp [children])
      have hbody := ih body (by simp [children]) hinner
      exact all_iff_children.mpr ⟨wellRooted_of_kind? rfl, by simpa [children] using hbody⟩
    · simp only [not_exists] at hvar hlambda
      refine all_iff_children.mpr ⟨fun hkind hroot => ?_, fun child hchild => ?_⟩
      · refine h.node ?_ (hroot.chain_substitute bindings)
        cases e with
        | staticCall method args =>
          cases args with
          | nil => cases hkind
          | cons first rest => exact hkind
        | _ => cases hkind
      · rw [substitute_eq_mapChildren hvar hlambda] at h
        have hmem : child.substitute bindings ∈
            (e.mapChildren (·.substitute bindings)).children := by
          rw [children_mapChildren]
          exact List.mem_map_of_mem hchild
        exact ih child hchild (h.child hmem)

/-- The calls of a chain are well rooted if its root is, and if nothing else is wrong in its root
and in its arguments. -/
theorem all_wellRooted_of_chain (hroot : ¬ r.Unrecognized (r.chain e).1)
    (hall : (r.chain e).1.All r.WellRooted)
    (hargs : ∀ call ∈ (r.chain e).2, ∀ arg ∈ call.args, arg.All r.WellRooted) :
    e.All r.WellRooted := by
  fun_induction Registry.chain r e with
  | case1 type e ih =>
    exact all_iff_children.mpr
      ⟨wellRooted_of_kind? rfl, by simpa [children] using ih hroot hall hargs⟩
  | case2 e ih =>
    exact all_iff_children.mpr
      ⟨wellRooted_of_kind? rfl, by simpa [children] using ih hroot hall hargs⟩
  | case3 method first rest kind hkind ih =>
    rw [List.forall_mem_append, List.forall_mem_singleton] at hargs
    refine all_iff_children.mpr ⟨fun _ => ?_, ?_⟩
    · simpa only [chain, hkind] using hroot
    · exact List.forall_mem_cons.mpr ⟨ih hroot hall hargs.1, hargs.2⟩
  | case4 | case5 => exact hall

end Registry

/-! ### Accepted expressions -/

namespace Construction

open Registry

variable {r : Registry} {process : Expr → BuildM Expr} {build : Expr → BuildM QueryModel}
  {c d : Construction}

/-- A step that succeeds only on expressions in which all chains are well rooted. -/
def Accepts {α : Type} (r : Registry) (step : Expr → BuildM α) : Prop :=
  ∀ e c a d, step e c = .ok (a, d) → e.All r.WellRooted

theorem Handled.wellRooted {arg : Expr} (hp : Accepts r process) (h : Handled process arg) :
    arg.All r.WellRooted := by
  rcases h with ⟨e, taken, c, d, hstems, hok⟩ | hfree
  · have htaken := hp _ _ _ _ hok
    cases hstems with
    | whole => exact htaken
    | stripped => exact all_wellRooted_of_strip htaken
    | body values hstrip =>
      apply all_wellRooted_of_strip
      rw [hstrip]
      have hbody := all_wellRooted_of_substitute htaken
      exact all_iff_children.mpr ⟨wellRooted_of_kind? rfl, by simpa [children] using hbody⟩
  · exact all_wellRooted_of_callFree hfree

theorem liftChainsAll_ok {es es' : List Expr} (h : liftChainsAll r build es c = .ok (es', d)) :
    ∀ e ∈ es, ∃ c₁ e' d₁, liftChains r build e c₁ = .ok (e', d₁) := by
  induction es generalizing c d es' with
  | nil => simp
  | cons e es ih =>
    obtain ⟨e', c₁, he, h⟩ := bind_ok h
    obtain ⟨es'', c₂, hes, -⟩ := bind_ok h
    exact List.forall_mem_cons.mpr ⟨⟨c, e', c₁, he⟩, ih hes⟩

theorem liftChains_accepts (hb : Accepts r build) : Accepts r (liftChains r build) := by
  intro e c e' d h
  induction e using Expr.byChildren generalizing c e' d with
  | step e ih =>
    cases hkind : r.kind? e.strip with
    | some kind =>
      rw [liftChains_of_kind? _ _ hkind] at h
      obtain ⟨m, c₁, hm, -⟩ := bind_ok h
      exact hb e c m c₁ hm
    | none =>
      rw [liftChains_eq _ _ hkind] at h
      obtain ⟨es, c₁, hes, -⟩ := bind_ok h
      refine all_iff_children.mpr
        ⟨wellRooted_of_kind? (kind?_of_strip hkind), fun child hchild => ?_⟩
      obtain ⟨c₂, e₂, d₂, hlift⟩ := liftChainsAll_ok hes child hchild
      exact ih child hchild c₂ e₂ d₂ hlift

theorem start_accepts {root : Expr} {m : QueryModel} (hp : Accepts r process)
    (h : start process root c = .ok (m, d)) : ¬ r.Unrecognized root ∧ root.All r.WellRooted := by
  unfold start at h
  split at h
  next entity =>
    refine ⟨?_, all_iff_children.mpr ⟨wellRooted_of_kind? rfl, by simp [children]⟩⟩
    rintro ⟨method, first, rest, heq, -⟩
    cases heq
  next method first rest =>
    split at h
    · cases h
    next hsequence =>
      obtain ⟨origin, c₁, hprocess, -⟩ := bind_ok h
      refine ⟨?_, hp _ _ _ _ hprocess⟩
      rintro ⟨_, _, _, heq, -, hfirst⟩
      obtain ⟨-, hargs⟩ := Expr.staticCall.inj heq
      obtain ⟨rfl, -⟩ := List.cons.inj hargs
      exact hsequence hfirst
  next _ hcall =>
    obtain ⟨origin, c₁, hprocess, -⟩ := bind_ok h
    refine ⟨?_, hp _ _ _ _ hprocess⟩
    rintro ⟨method, first, rest, heq, -⟩
    exact hcall method first rest heq

end Construction

namespace Builder

open Construction Registry

variable (b : Builder)

theorem process_accepts {build : Expr → BuildM QueryModel} (hb : Accepts b.registry build) :
    Accepts b.registry (b.process build) := by
  intro e c e' d h
  obtain ⟨e₁, c₁, hlift, -⟩ := bind_ok h
  exact liftChains_accepts hb e c e₁ c₁ hlift

theorem chain_accepts {limit : Nat} (hp : Accepts b.registry (b.processor limit)) :
    Accepts b.registry (b.buildChain limit) := by
  intro e c m d h
  rw [buildChain_eq] at h
  obtain ⟨m₀, c₀, hstart, h⟩ := bind_ok h
  obtain ⟨hroot, hall⟩ := start_accepts hp hstart
  obtain ⟨entries, -, -, hargs⟩ := applyAll_records (b.processor_extending limit) h
  refine all_wellRooted_of_chain hroot hall fun call hcall arg harg => ?_
  exact (hargs arg (List.mem_flatMap.mpr ⟨call, hcall, harg⟩)).wellRooted hp

theorem processor_accepts (limit : Nat) : Accepts b.registry (b.processor limit) := by
  induction limit with
  | zero => exact b.process_accepts fun _ _ _ _ h => by cases h
  | succ limit ih => exact b.process_accepts (b.chain_accepts ih)

/-- A call without receiver that is in the arena is by a method that the query calls so itself, or
it compares strings. -/
theorem build_callsBy {limit : Nat} {e : Expr} {built : BuiltQuery}
    (hpasses : ∀ pass ∈ b.passes, pass.KeepsNodes) (hbuilt : b.build limit e = .ok built) :
    ∀ part ∈ built.arena.expressions, ∀ method first rest,
      .staticCall method (first :: rest) ∈ part.nodes →
      method = .stringCompare ∨ ∃ first' rest', .staticCall method (first' :: rest') ∈ e.nodes := by
  let q (method : Method) : Prop :=
    method = .stringCompare ∨ ∃ first rest, .staticCall method (first :: rest) ∈ e.nodes
  have he : e.All (CallsBy q) := by
    intro n hn
    unfold CallsBy
    split
    · exact .inr ⟨_, _, hn⟩
    · trivial
  obtain ⟨hmodels, hsources⟩ := build_all (callsBy_passRule (q := q) (.inl rfl)) (fun _ => trivial)
    (fun _ => trivial) hpasses he hbuilt
  intro part hpart method first rest hcall
  have hall : part.All (CallsBy q) := by
    rcases List.mem_append.mp hpart with hpart | hpart
    · obtain ⟨m, hm, hpart⟩ := List.mem_flatMap.mp hpart
      exact hmodels m hm part hpart
    · obtain ⟨src, hsrc, rfl⟩ := List.mem_map.mp hpart
      exact hsources src hsrc
  exact hall _ hcall

/-- Unrecognized calls are refused at the roots of chains. A query whose own chain starts with such
a call fails, and the error names the method. If a query is built, no chain in it starts with such a
call, at any depth. What stands elsewhere is not looked at; the calls without receiver that are then
in the arena are those of the query. -/
theorem build_refuses_unrecognized (b : Builder) (limit : Nat) (e : Expr) :
    (∀ method first rest, (b.registry.chain e).1 = .staticCall method (first :: rest) →
      first.isSequence = true → b.build limit e = .error (.unrecognizedOperator method.text)) ∧
    ∀ built, b.build limit e = .ok built →
      e.All b.registry.WellRooted ∧
      ((∀ pass ∈ b.passes, pass.KeepsNodes) → ∀ part ∈ built.arena.expressions, ∀ method first rest,
        .staticCall method (first :: rest) ∈ part.nodes →
        method = .stringCompare ∨ ∃ first' rest',
          .staticCall method (first' :: rest') ∈ e.nodes) := by
  refine ⟨fun method first rest hroot hsequence => ?_, fun built hbuilt => ⟨?_, ?_⟩⟩
  · have hchain : (b.buildChain limit e).run ⟨.empty, []⟩ =
        .error (.unrecognizedOperator method.text) := by
      rw [buildChain_eq, hroot]
      simp only [start, if_pos hsequence]
      rfl
    rw [build, hchain]
    rfl
  · obtain ⟨⟨m, c⟩, hchain, -⟩ := bind_eq_ok.mp hbuilt
    exact b.chain_accepts (b.processor_accepts limit) e _ m c hchain
  · exact fun hpasses => b.build_callsBy hpasses hbuilt

/-- A call on a sequence by a method that no provider knows. -/
def recent (source : Expr) : Expr := .staticCall (.ofParts "Hints" "Recent" 1) [source]

def openOrders (customer : Expr) : Expr :=
  .filtered (.member customer ⟨"Customer", "Orders"⟩)
    (.lambda ["o"] (.member (.var "o") ⟨"Order", "Open"⟩))

/-- The customers who have open orders. -/
def customersWithOpenOrders : Expr :=
  .filtered (.entityQuery "Customer") (.lambda ["c"] (.any (openOrders (.var "c"))))

/-- The call is refused below `Distinct`. In a query that is built, calls of the arena are its
own. -/
theorem build_refuses_unrecognized_recent :
    let b : Builder := .standard .standard 8 ⟨⟨0, 0⟩, fun _ => .empty⟩
    b.build 8 (.distinct (recent (.entityQuery "Order"))) =
        .error (.unrecognizedOperator (Method.ofParts "Hints" "Recent" 1).text) ∧
      ∃ built, b.build 8 customersWithOpenOrders = .ok built ∧
        customersWithOpenOrders.All b.registry.WellRooted ∧
        ∀ part ∈ built.arena.expressions, ∀ method first rest,
          .staticCall method (first :: rest) ∈ part.nodes → method = .stringCompare ∨
            ∃ first' rest',
              .staticCall method (first' :: rest') ∈ customersWithOpenOrders.nodes := by
  intro b
  refine ⟨(b.build_refuses_unrecognized 8 _).1 _ (.entityQuery "Order") [] (by decide) rfl, ?_⟩
  have hok : (b.build 8 customersWithOpenOrders).isOk = true := by decide +kernel
  obtain ⟨built, hbuilt⟩ := exists_of_isOk hok
  obtain ⟨hrooted, hcalls⟩ := (b.build_refuses_unrecognized 8 _).2 built hbuilt
  exact ⟨built, hbuilt, hrooted, hcalls (standard_keepsNodes .standard 8 _)⟩

theorem unrecognized_recent {source : Expr} (h : source.isSequence = true) :
    Registry.standard.Unrecognized (recent source) :=
  ⟨_, source, [], rfl, by decide, h⟩

/-- Elsewhere the calls end up in the arena: as the operand of a set operation, and in a main
source, if what the call is on becomes a sequence only when its own chain is cut out. -/
theorem build_admits_unrecognized :
    let b : Builder := .standard .standard 8 ⟨⟨0, 0⟩, fun _ => .empty⟩
    (∃ built m operand,
      b.build 8 (.concat (.entityQuery "Customer") (recent (.entityQuery "Order"))) =
        .ok built ∧ built.arena.model? built.root = some m ∧
      .combine .concat operand ∈ m.operators ∧ Registry.standard.Unrecognized operand.strip) ∧
    ∃ built src, b.build 8 (.filtered (.entityQuery "Customer")
        (.lambda ["c"] (.any (recent (openOrders (.var "c")))))) = .ok built ∧
      src ∈ built.arena.sources ∧ src.kind = .mainFrom ∧
      Registry.standard.Unrecognized src.origin.strip := by
  intro b
  refine ⟨?_, ?_⟩
  · have hoperators : ((b.build 8 (.concat (.entityQuery "Customer")
        (recent (.entityQuery "Order")))).toOption.map fun built =>
          (built.arena.model? built.root).map (·.operators)) =
        some (some [.combine .concat (recent (.entityQuery "Order"))]) := by decide +kernel
    obtain ⟨built, hbuilt, hmodel⟩ := exists_of_toOption_map hoperators
    obtain ⟨m, hm, hops⟩ := Option.map_eq_some_iff.mp hmodel
    exact ⟨built, m, recent (.entityQuery "Order"), hbuilt, hm, by simp [hops],
      unrecognized_recent rfl⟩
  · have hsources : ((b.build 8 (.filtered (.entityQuery "Customer")
        (.lambda ["c"] (.any (recent (openOrders (.var "c"))))))).toOption.map fun built =>
          built.arena.sources.any fun src =>
            src.kind = .mainFrom ∧ src.origin = recent (.subQuery 0)) =
              some true := by decide +kernel
    obtain ⟨built, hbuilt, hany⟩ := exists_of_toOption_map hsources
    obtain ⟨src, hsrc, htest⟩ := List.any_eq_true.mp hany
    obtain ⟨hkind, horigin⟩ := of_decide_eq_true htest
    exact ⟨built, src, hbuilt, hsrc, hkind, horigin ▸ unrecognized_recent rfl⟩

end Builder

end QueryTree
