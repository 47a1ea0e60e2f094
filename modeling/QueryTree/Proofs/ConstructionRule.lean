import Mathlib.Data.List.Forall2
import QueryTree.Proofs.Construction

/-! What construction makes of conditions on expressions. Expressions are raw until their chains are
cut out and the passes have run; then they are done, and models hold only expressions that are done.
A rule says what raw and done mean and how the steps of a construction lead from one to the other;
that every expression of the arena is done follows from the rule alone. -/

namespace QueryTree

/-! ### Parts of operator calls -/

/-- What an operator makes of an argument: it takes it as it is, applies it to items, or selects
what it yields as the new items. -/
inductive ArgumentRole where
  | value | function | selector
  deriving DecidableEq

/-- A part of an operator call that becomes an expression of its own; the operator binds `params` in
it. -/
structure OperatorPart where
  params : List String
  body : Expr
  selected : Bool

namespace OperatorKind

def role : OperatorKind → Nat → ArgumentRole
  | select, _ | aggregate _, _ | selectMany, 1 | join _, 3 => .selector
  | join _, 0 => .value
  | filter, _ | selectMany, _ | join _, _ | orderBy _, _ | thenBy _, _ | groupBy, _ | element _ _, _
  | count _, _ | any, _ | all, _ | includeLambda, _ | thenInclude, _ | custom _, _ => .function
  | _, _ => .value

/-- Operators of extensions range over items only by lambdas of one parameter. -/
def binds : OperatorKind → Nat → Bool
  | custom _, arity => arity == 1
  | _, _ => true

def part (kind : OperatorKind) (i : Nat) (arg : Expr) : OperatorPart :=
  if kind.role i = .value then ⟨[], arg, false⟩
  else
    match arg.strip with
    | .lambda ps body =>
      if kind.binds ps.length then ⟨ps, body, kind.role i = .selector⟩
      else ⟨[], .lambda ps body, false⟩
    | e => ⟨[], e, false⟩

section

variable {kind : OperatorKind} {i : Nat} {e b : Expr} {ps : List String}

theorem part_of_value (h : kind.role i = .value) : kind.part i e = ⟨[], e, false⟩ := by
  simp [part, h]

theorem part_of_lambda (h : kind.role i ≠ .value) (he : e.strip = .lambda ps b) :
    kind.part i e = if kind.binds ps.length then ⟨ps, b, kind.role i = .selector⟩
      else ⟨[], .lambda ps b, false⟩ := by
  simp [part, h, he]

theorem part_of_not_lambda (h : kind.role i ≠ .value) (he : ∀ ps b, e.strip ≠ .lambda ps b) :
    kind.part i e = ⟨[], e.strip, false⟩ := by
  unfold part
  rw [if_neg h]
  split
  next ps b hb => exact absurd hb (he ps b)
  next => rfl

/-- A part is the argument, with or without its conversions and quotes, or the body of its
lambda. -/
theorem part_cases (kind : OperatorKind) (i : Nat) (e : Expr) :
    kind.part i e = ⟨[], e, false⟩ ∨ kind.part i e = ⟨[], e.strip, false⟩ ∨
      ∃ ps b selected, e.strip = .lambda ps b ∧ kind.part i e = ⟨ps, b, selected⟩ := by
  by_cases hrole : kind.role i = .value
  · exact .inl (part_of_value hrole)
  by_cases hlambda : ∃ ps b, e.strip = .lambda ps b
  · obtain ⟨ps, b, hlambda⟩ := hlambda
    rw [part_of_lambda hrole hlambda]
    split
    · exact .inr (.inr ⟨ps, b, _, hlambda, rfl⟩)
    · exact .inr (.inl (by rw [hlambda]))
  · exact .inr (.inl (part_of_not_lambda hrole fun ps b hb => hlambda ⟨ps, b, hb⟩))

end

end OperatorKind

namespace OperatorCall

/-- Whether the operator applies a function to the items. -/
def applies (call : OperatorCall) : Bool :=
  (List.range call.args.length).any fun i => call.kind.role i ≠ .value

def parts (call : OperatorCall) : List OperatorPart := call.args.mapIdx call.kind.part

theorem applies_of_role {call : OperatorCall} {i : Nat} {a : Expr} (ha : call.args[i]? = some a)
    (hrole : call.kind.role i ≠ .value) : call.applies = true := by
  obtain ⟨hi, _⟩ := List.getElem?_eq_some_iff.mp ha
  exact List.any_eq_true.mpr ⟨i, List.mem_range.mpr hi, decide_eq_true hrole⟩

end OperatorCall

/-! ### Rules -/

/-- Where an expression stands: in a model with the variables `scope` around it, under parameters
that its operator will bind, below lambdas of its own that bind `inner`. -/
structure Place where
  scope : List String
  params : List String
  inner : List String
  selected : Bool

namespace Place

def part (scope : List String) (selected : Bool) : Place := ⟨scope, [], [], selected⟩

def below (p : Place) (e : Expr) : Place := { p with inner := e.binds ++ p.inner }

end Place

/-- Conditions on raw and done expressions that a construction obeys. They may depend on the scopes
of the models that are in the arena. -/
structure BuildRule (b : Builder) where
  raw : List (List String) → Place → Expr → Prop
  done : List (List String) → Place → Expr → Prop
  raw_grow : ∀ {scopes scopes' p e}, scopes <+: scopes' → raw scopes p e → raw scopes' p e
  done_grow : ∀ {scopes scopes' p e}, scopes <+: scopes' → done scopes p e → done scopes' p e
  loosen : ∀ {scopes scope e}, done scopes (.part scope true) e → done scopes (.part scope false) e
  source : ∀ scopes p s, done scopes p (.sourceRef s)
  subquery : ∀ {scopes scope j} selected, scopes[j]? = some scope →
    done scopes (.part scope selected) (.subQuery j)
  entity : ∀ {scopes p entity}, raw scopes p (.entityQuery entity) →
    done scopes p (.entityQuery entity)
  strip : ∀ {scopes p e}, raw scopes p e → raw scopes p e.strip
  /-- The items take the place of the parameters. -/
  bind : ∀ {scopes scope selected ps body values}, raw scopes ⟨scope, ps, [], selected⟩ body →
    ps.length = values.length → (∀ v ∈ values, done scopes (.part scope true) v) →
    raw scopes (.part scope selected) (body.substitute (Bindings.ofPairs (ps.zip values)))
  /-- The operators of a chain take their arguments. What one selects is put into other expressions
  if a later one applies a function to it. -/
  operators : ∀ {scopes scope e}, raw scopes (.part scope false) e →
    raw scopes (.part scope false) (b.registry.chain e).1 ∧
      ∀ earlier call later, (b.registry.chain e).2 = earlier ++ call :: later →
        ∀ part ∈ call.parts, raw scopes
          ⟨scope, part.params, [], part.selected && later.any (·.applies)⟩ part.body
  descend : ∀ {scopes p e}, raw scopes p e → b.registry.kind? e = none → ∀ c ∈ e.children,
    raw scopes (p.below e) c
  /-- A chain becomes a model with a scope of its own. -/
  chain : ∀ {scopes p e}, p.params = [] → raw scopes p e →
    (b.registry.kind? e.strip).isSome = true →
    ∃ scope, raw scopes (.part scope false) e ∧ ∀ scopes' j, scopes <+: scopes' →
      scopes'[j]? = some scope → done scopes' p (.subQuery j)
  /-- A node that is no chain is kept over what its subexpressions become. -/
  rebuild : ∀ {scopes p e es}, p.params = [] → raw scopes p e → b.registry.kind? e = none →
    es.length = e.children.length → (∀ c ∈ es, done scopes (p.below e) c) →
    done scopes p (e.withChildren es)
  passes : ∀ {scopes scope selected e}, done scopes (.part scope selected) e →
    Yields (fun _ => True) (done scopes (.part scope selected)) (Pass.runAll b.passes e)

/-- A construction, and the scopes of the models that are in its arena. -/
structure Stage where
  scopes : List (List String)
  construction : Construction

/-- Later stages keep scopes and sequences. -/
structure Stage.Extends (s s' : Stage) : Prop where
  scopes : s.scopes <+: s'.scopes
  origins : ∀ id src, s.construction.arena.source? id = some src →
    ∃ src', s'.construction.arena.source? id = some src' ∧ src'.origin = src.origin

theorem Stage.Extends.refl (s : Stage) : s.Extends s :=
  ⟨List.prefix_rfl, fun _ src h => ⟨src, h, rfl⟩⟩

theorem Stage.Extends.trans {s s' s'' : Stage} (h : s.Extends s') (h' : s'.Extends s'') :
    s.Extends s'' where
  scopes := h.scopes.trans h'.scopes
  origins := by
    intro id src hsrc
    obtain ⟨src', hsrc', heq⟩ := h.origins id src hsrc
    obtain ⟨src'', hsrc'', heq'⟩ := h'.origins id src' hsrc'
    exact ⟨src'', hsrc'', heq'.trans heq⟩

namespace BuildRule

variable {b : Builder} (R : BuildRule b)

/-- A source whose sequence is done. -/
def Sourced (st : Stage) (scope : List String) (id : SourceId) : Prop :=
  ∃ src, st.construction.arena.source? id = some src ∧
    R.done st.scopes (.part scope false) src.origin

/-- All that a model holds is done. If its items will be put into further expressions, more has to
hold of them. -/
structure Settled (reused : Bool) (st : Stage) (scope : List String) (m : QueryModel) : Prop where
  select : reused = true → R.done st.scopes (.part scope true) m.select
  expressions : ∀ e ∈ m.expressions, R.done st.scopes (.part scope false) e
  sources : ∀ id ∈ m.declaredSources, R.Sourced st scope id

/-- All that the arena holds is done. -/
structure Laid (st : Stage) : Prop where
  models : List.Forall₂ (R.Settled false st) st.scopes st.construction.arena.models
  sources : ∀ src ∈ st.construction.arena.sources,
    ∃ scope, R.done st.scopes (.part scope false) src.origin

/-- A step keeps everything done and ends as `Good` says, unless it fails. -/
def Leaves {α : Type} (x : BuildM α) (st : Stage) (Good : Stage → α → Prop) : Prop :=
  R.Laid st → Yields (fun _ => True)
    (fun r => ∃ scopes, st.Extends ⟨scopes, r.2⟩ ∧ R.Laid ⟨scopes, r.2⟩ ∧ Good ⟨scopes, r.2⟩ r.1)
    (x st.construction)

/-- Raw expressions are done after the step. -/
def Processes (process : Expr → BuildM Expr) : Prop :=
  ∀ st scope selected e, R.raw st.scopes (.part scope selected) e →
    R.Leaves (process e) st fun st' e' => R.done st'.scopes (.part scope selected) e'

def Builds (build : Expr → BuildM QueryModel) : Prop :=
  ∀ st scope e, R.raw st.scopes (.part scope false) e →
    R.Leaves (build e) st fun st' m => R.Settled false st' scope m

/-- An argument that, if it is a lambda, may be applied to items. -/
def Applies (scopes : List (List String)) (scope : List String) (selected : Bool) (e : Expr) :
    Prop :=
  ∀ ps body, e.strip = .lambda ps body → R.raw scopes ⟨scope, ps, [], selected⟩ body

/-- Arguments that an operator may take, if its items are reused or if not. -/
def Fits (scopes : List (List String)) (scope : List String) (reused : Bool) (kind : OperatorKind)
    (args : List Expr) : Prop :=
  ∀ i a, args[i]? = some a → R.raw scopes
    ⟨scope, (kind.part i a).params, [], (kind.part i a).selected && reused⟩ (kind.part i a).body

variable {R} {reused : Bool} {st st' : Stage} {scope : List String} {m : QueryModel} {e : Expr}

theorem Sourced.grow {id : SourceId} (h : R.Sourced st scope id) (hst : st.Extends st') :
    R.Sourced st' scope id := by
  obtain ⟨src, hsrc, hdone⟩ := h
  obtain ⟨src', hsrc', heq⟩ := hst.origins id src hsrc
  exact ⟨src', hsrc', heq ▸ R.done_grow hst.scopes hdone⟩

theorem Settled.grow (h : R.Settled reused st scope m) (hst : st.Extends st') :
    R.Settled reused st' scope m where
  select hr := R.done_grow hst.scopes (h.select hr)
  expressions e he := R.done_grow hst.scopes (h.expressions e he)
  sources id hid := (h.sources id hid).grow hst

theorem Settled.loosen {looser : Bool} (h : R.Settled reused st scope m)
    (hr : looser = true → reused = true) : R.Settled looser st scope m where
  select hl := h.select (hr hl)
  expressions := h.expressions
  sources := h.sources

/-- An operator with a function finds items that it may be applied to. -/
theorem Settled.items {call : OperatorCall} {i : Nat} {a : Expr}
    (h : R.Settled (call.applies || reused) st scope m) (ha : call.args[i]? = some a)
    (hrole : call.kind.role i ≠ .value) : R.Settled true st scope m :=
  h.loosen fun _ => by simp [OperatorCall.applies_of_role ha hrole]

theorem Settled.optional {call : OperatorCall} {o : Option Expr}
    (h : R.Settled (call.applies || reused) st scope m) (ho : call.args = o.toList)
    (hrole : call.kind.role 0 ≠ .value) : R.Settled (o.isSome || reused) st scope m := by
  cases o with
  | none => exact h.loosen fun hr => by simp [show reused = true from hr]
  | some a => exact (h.items (i := 0) (by rw [ho]; rfl) hrole).loosen fun _ => rfl

theorem Laid.settled (h : R.Laid st) {k : ModelId}
    (hm : st.construction.arena.model? k = some m) :
    ∃ scope, st.scopes[k]? = some scope ∧ R.Settled false st scope m := by
  obtain ⟨hk, hget⟩ := List.getElem?_eq_some_iff.mp hm
  have hk' : k < st.scopes.length := by rwa [h.models.length_eq]
  refine ⟨st.scopes[k], List.getElem?_eq_getElem hk', ?_⟩
  have hsettled := h.models.get hk' hk
  simp only [List.get_eq_getElem, hget] at hsettled
  exact hsettled

theorem Fits.grow {scopes scopes' : List (List String)} {kind : OperatorKind} {args : List Expr}
    (h : R.Fits scopes scope reused kind args) (hs : scopes <+: scopes') :
    R.Fits scopes' scope reused kind args :=
  fun i a ha => R.raw_grow hs (h i a ha)

theorem Fits.value {scopes : List (List String)} {kind : OperatorKind} {args : List Expr} {i : Nat}
    (h : R.Fits scopes scope reused kind args) (he : args[i]? = some e)
    (hrole : kind.role i = .value) :
    R.raw scopes (.part scope false) e := by
  have hraw := h i e he
  rwa [OperatorKind.part_of_value hrole] at hraw

theorem Fits.function {scopes : List (List String)} {kind : OperatorKind} {args : List Expr}
    {i : Nat} (h : R.Fits scopes scope reused kind args) (he : args[i]? = some e)
    (hrole : kind.role i = .function) (hbinds : ∀ n, kind.binds n = true) :
    R.Applies scopes scope false e := by
  intro ps body hlambda
  have hpart : kind.part i e = ⟨ps, body, false⟩ := by
    rw [OperatorKind.part_of_lambda (by simp [hrole]) hlambda, if_pos (hbinds _)]
    simp [hrole]
  have hraw := h i e he
  rwa [hpart] at hraw

theorem Fits.selector {scopes : List (List String)} {kind : OperatorKind} {args : List Expr}
    {i : Nat} (h : R.Fits scopes scope reused kind args) (he : args[i]? = some e)
    (hrole : kind.role i = .selector) (hbinds : ∀ n, kind.binds n = true) :
    R.Applies scopes scope reused e := by
  intro ps body hlambda
  have hpart : kind.part i e = ⟨ps, body, true⟩ := by
    rw [OperatorKind.part_of_lambda (by simp [hrole]) hlambda, if_pos (hbinds _)]
    simp [hrole]
  have hraw := h i e he
  rwa [hpart] at hraw

/-! ### Steps -/

section

variable {α β : Type} {x : BuildM α} {Good : Stage → α → Prop}

theorem Leaves.bind {f : α → BuildM β} {Next : Stage → β → Prop} (hx : R.Leaves x st Good)
    (hf : ∀ a st', st.Extends st' → Good st' a → R.Leaves (f a) st' Next) :
    R.Leaves (x >>= f) st Next := by
  intro hlaid
  apply Yields.bind (hx hlaid)
  rintro ⟨a, c'⟩ ⟨scopes, hext, hlaid', hgood⟩
  apply (hf a ⟨scopes, c'⟩ hext hgood hlaid').mono
  · rintro r ⟨scopes', hext', h⟩
    exact ⟨scopes', hext.trans hext', h⟩
  · exact fun _ h => h

theorem Leaves.mono {Good' : Stage → α → Prop} (hx : R.Leaves x st Good)
    (h : ∀ st' a, st.Extends st' → Good st' a → Good' st' a) : R.Leaves x st Good' := by
  intro hlaid
  apply (hx hlaid).mono
  · rintro r ⟨scopes, hext, hlaid', hgood⟩
    exact ⟨scopes, hext, hlaid', h _ _ hext hgood⟩
  · exact fun _ h => h

theorem leaves_pure {a : α} (h : Good st a) : R.Leaves (pure a) st Good :=
  fun hlaid => ⟨st.scopes, .refl st, hlaid, h⟩

theorem leaves_fail {method : Method} {fault : ArgumentFault} :
    R.Leaves (Construction.fail method fault) st Good :=
  fun _ => trivial

end

end BuildRule

namespace Construction

open BuildRule

variable {b : Builder} {R : BuildRule b} {process : Expr → BuildM Expr} {st : Stage}
  {scope : List String} {selected reused : Bool} {m : QueryModel} {method : Method} {e : Expr}
  {lambda : Lambda} {args : List Expr}

/-! ### Sources and models -/

theorem addModel_leaves (hm : R.Settled reused st scope m) :
    R.Leaves (addModel m) st fun st' id => st'.scopes[id]? = some scope := by
  intro hlaid
  have hlength : st.scopes.length = st.construction.arena.models.length := hlaid.models.length_eq
  have hext : st.Extends ⟨st.scopes ++ [scope],
      { st.construction with arena := (st.construction.arena.addModel m).2 }⟩ :=
    ⟨List.prefix_append _ _, fun _ src hsrc => ⟨src, hsrc, rfl⟩⟩
  refine ⟨st.scopes ++ [scope], hext, ⟨?_, ?_⟩, ?_⟩
  · have hold := hlaid.models.imp fun _ _ h => h.grow hext
    have hnew : R.Settled false st scope m := hm.loosen nofun
    exact List.rel_append hold (.cons (hnew.grow hext) .nil)
  · intro src hsrc
    obtain ⟨scope', hdone⟩ := hlaid.sources src hsrc
    exact ⟨scope', R.done_grow hext.scopes hdone⟩
  · simp [← hlength]

theorem laid_addSource {src : QuerySource} {generated : List SourceId} (hlaid : R.Laid st)
    (hdone : R.done st.scopes (.part scope false) src.origin) :
    let st' : Stage := ⟨st.scopes, ⟨(st.construction.arena.addSource src).2, generated⟩⟩
    st.Extends st' ∧ R.Laid st' ∧ R.Sourced st' scope st.construction.arena.sources.length := by
  intro st'
  have hext : st.Extends st' := by
    refine ⟨List.prefix_rfl, fun id old hold => ⟨old, ?_, rfl⟩⟩
    have hlt : id < st.construction.arena.sources.length :=
      (List.getElem?_eq_some_iff.mp hold).1
    simp only [st', Arena.source?_addSource, if_neg (Nat.ne_of_lt hlt)]
    exact hold
  refine ⟨hext, ⟨?_, ?_⟩, src, ?_, hdone⟩
  · exact hlaid.models.imp fun _ _ h => h.grow hext
  · intro old hold
    rcases List.mem_append.mp hold with hold | hold
    · exact hlaid.sources old hold
    · obtain rfl := List.mem_singleton.mp hold
      exact ⟨scope, hdone⟩
  · simp [st', Arena.source?_addSource]

theorem addGenerated_leaves (kind : SourceKind) (itemType : Option String)
    (he : R.done st.scopes (.part scope false) e) :
    R.Leaves (addGenerated kind e itemType) st fun st' id => R.Sourced st' scope id :=
  fun hlaid => ⟨st.scopes, laid_addSource hlaid he⟩

theorem addNamed_leaves (name : String) (kind : SourceKind)
    (he : R.done st.scopes (.part scope false) e) :
    R.Leaves (addNamed name kind e) st fun st' id => R.Sourced st' scope id :=
  fun hlaid => ⟨st.scopes, laid_addSource hlaid he⟩

theorem adoptName_leaves (select : Expr) (name : String) :
    R.Leaves (adoptName select name) st fun _ _ => True := by
  intro hlaid
  unfold adoptName
  split
  next id =>
    split
    · have hext : st.Extends ⟨st.scopes, ⟨st.construction.arena.renameSource id name,
          st.construction.generated.filter (· ≠ id)⟩⟩ := by
        refine ⟨List.prefix_rfl, fun s src hsrc => ?_⟩
        rw [Arena.source?_renameSource, hsrc]
        refine ⟨_, rfl, ?_⟩
        split <;> rfl
      refine ⟨st.scopes, hext, ⟨hlaid.models.imp fun _ _ h => h.grow hext, ?_⟩, trivial⟩
      intro src hsrc
      obtain ⟨s, hs⟩ := List.mem_iff_getElem?.mp hsrc
      have hs' : (st.construction.arena.renameSource id name).source? s = some src := hs
      rw [Arena.source?_renameSource] at hs'
      obtain ⟨old, hold, rfl⟩ := Option.map_eq_some_iff.mp hs'
      obtain ⟨scope, hdone⟩ := hlaid.sources old (List.mem_of_getElem? hold)
      refine ⟨scope, ?_⟩
      split <;> exact hdone
    · exact ⟨st.scopes, .refl st, hlaid, trivial⟩
  next => exact ⟨st.scopes, .refl st, hlaid, trivial⟩

theorem adoptParam_leaves (m : QueryModel) (lambda : Lambda) :
    R.Leaves (adoptParam m lambda) st fun _ _ => True := by
  unfold adoptParam
  split
  · exact leaves_pure trivial
  · exact adoptName_leaves _ _

theorem itemType?_leaves (select : Expr) : R.Leaves (itemType? select) st fun _ _ => True := by
  intro hlaid
  unfold itemType?
  split <;> exact ⟨st.scopes, .refl st, hlaid, trivial⟩

end Construction

end QueryTree
