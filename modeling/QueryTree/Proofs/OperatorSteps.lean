import QueryTree.Proofs.SideBySideRun

/-! What the operators of a chain do to a model under construction, in single steps. The steps that
record an operator in the model tell which one it is and what has become of its arguments. -/

namespace QueryTree

/-! ### Entries -/

/-- An operator as a model records it; `parts` are the expressions and sources made of its
arguments. -/
structure Entry where
  kind : OperatorKind
  type : Option String
  parts : List (Expr ⊕ SourceId)

/-- The first key of an ordering is recorded by an `OrderBy`, each further one by a `ThenBy`. -/
def SortKey.entries : List SortKey → List Entry
  | [] => []
  | first :: further =>
    ⟨.orderBy first.descending, none, [.inl first.key]⟩ ::
      further.map fun key => ⟨.thenBy key.descending, none, [.inl key.key]⟩

def Clause.entries : Clause → List Entry
  | filter predicate => [⟨.filter, none, [.inl predicate]⟩]
  | orderBy keys => SortKey.entries keys
  | additionalFrom source => [⟨.selectMany, none, [.inr source]⟩]
  | join grouped source outer inner =>
    [⟨.join grouped, none, [.inr source, .inl outer, .inl inner]⟩]

namespace ResultOperator

def kind : ResultOperator → OperatorKind
  | take _ => .take
  | skip _ => .skip
  | contains _ => .contains
  | element pick orDefault => .element pick orDefault
  | count long => .count long
  | any => .any
  | all _ => .all
  | aggregate a => .aggregate a
  | distinct => .distinct
  | reverse => .reverse
  | combine c _ => .combine c
  | groupBy .. => .groupBy
  | cast _ => .cast
  | ofType _ => .ofType
  | defaultIfEmpty _ => .defaultIfEmpty
  | tracking on => .tracking on
  | tag _ => .tag
  | ignoreFilters => .ignoreFilters
  | includes .. => .includeLambda
  | custom name _ => .custom name

def targetType? : ResultOperator → Option String
  | cast type | ofType type => some type
  | _ => none

/-- Directives record no operator on the sequence. -/
def entries (op : ResultOperator) : List Entry :=
  if op.isDirective then [] else [⟨op.kind, op.targetType?, op.expressions.map .inl⟩]

/-- Operators with a lambda that ranges over the items. -/
def rangesOverItems : ResultOperator → Bool
  | all _ | groupBy .. => true
  | _ => false

theorem source?_of_rangesOverItems {op : ResultOperator} (h : op.rangesOverItems = false) :
    op.source? = none := by
  cases op with
  | groupBy => cases h
  | _ => rfl

end ResultOperator

/-- The operators that a model records: first those of its clauses, then those on what it
selects. -/
def QueryModel.entries (m : QueryModel) : List Entry :=
  m.clauses.flatMap (·.entries) ++ m.operators.flatMap (·.entries)

namespace OperatorCall

/-- The type that the items are taken for. -/
def targetType? (call : OperatorCall) : Option String :=
  match call.kind with
  | .cast | .ofType => call.method.generics.head?
  | _ => none

/-- The operators that a call stands for. What is selected is no operator of its own; a condition on
what is counted or picked is a filter before it; directives are no operators on the sequence. -/
def contributions (call : OperatorCall) : List OperatorCall :=
  match call.kind with
  | .select => []
  | .tracking _ | .tag | .ignoreFilters | .includeLambda | .includeString | .thenInclude => []
  | .selectMany => [{ call with args := call.args.take 1 }]
  | .join _ => [{ call with args := call.args.take 3 }]
  | .element .. | .count _ | .any =>
    (if call.args.isEmpty then [] else [{ call with kind := .filter }]) ++
      [{ call with args := [] }]
  | .aggregate _ => [{ call with args := [] }]
  | _ => [call]

end OperatorCall

/-- Contains no call without receiver. -/
def Expr.CallFree (e : Expr) : Prop := e.All fun n => ∀ method args, n ≠ .staticCall method args

theorem Expr.callFree_iff {e : Expr} :
    e.CallFree ↔ (∀ method args, e ≠ .staticCall method args) ∧ ∀ c ∈ e.children, c.CallFree :=
  all_iff_children

theorem Expr.callFree_of_strip {e : Expr} (h : e.strip.CallFree) : e.CallFree :=
  all_of_strip (by simp) h

/-- The source stands for the groups of a grouping. -/
def Arena.IsGroups (a : Arena) (s : SourceId) : Prop :=
  ∃ src, a.source? s = some src ∧ src.kind = .groupResult

namespace Construction

/-! ### Steps -/

/-- A model under construction. -/
structure Draft where
  model : QueryModel
  construction : Construction

/-- The steps of operators, with what they record in the model. -/
inductive Step (process : Expr → BuildM Expr) : Draft → List Entry → Draft → Prop where
  | process {m : QueryModel} {c d : Construction} {e e' : Expr} (h : process e c = .ok (e', d)) :
      Step process ⟨m, c⟩ [] ⟨m, d⟩
  | rename (m : QueryModel) (c : Construction) (id : SourceId) (name : String)
      (generated : List SourceId) :
      Step process ⟨m, c⟩ [] ⟨m, ⟨c.arena.renameSource id name, generated⟩⟩
  | source (m : QueryModel) (c : Construction) {src : QuerySource} (generated : List SourceId)
      (hkind : src.kind ≠ .mainFrom) :
      Step process ⟨m, c⟩ [] ⟨m, ⟨(c.arena.addSource src).2, generated⟩⟩
  /-- The model becomes a subquery, and a new one ranges over its items. -/
  | wrap {m : QueryModel} {c : Construction} {src : QuerySource} (generated : List SourceId)
      (hlast : m.lastOperator?.isSome = true) (hkind : src.kind = .mainFrom)
      (horigin : src.origin = .subQuery c.arena.models.length) :
      Step process ⟨m, c⟩ [] ⟨.ofSource c.arena.sources.length,
        ⟨((c.arena.addModel m).2.addSource src).2, generated⟩⟩
  | clause {m : QueryModel} (c : Construction) (new : Clause) (hnew : new ≠ .orderBy [])
      (hlast : m.lastOperator? = none) : Step process ⟨m, c⟩ new.entries ⟨m.addClause new, c⟩
  | select {m : QueryModel} (c : Construction) (e : Expr) (hlast : m.lastOperator? = none) :
      Step process ⟨m, c⟩ [] ⟨{ m with select := e }, c⟩
  | ordering {m : QueryModel} (c : Construction) (key : SortKey) (hends : endsInOrdering m = true) :
      Step process ⟨m, c⟩ [⟨.thenBy key.descending, none, [.inl key.key]⟩]
        ⟨{ m with clauses := extendOrdering key m.clauses }, c⟩
  | operator {m : QueryModel} (c : Construction) (op : ResultOperator)
      (hitems : op.rangesOverItems = true → m.groupSource? = none)
      (hgroups : ∀ s ∈ op.source?, c.arena.IsGroups s) :
      Step process ⟨m, c⟩ op.entries ⟨m.addOperator op, c⟩
  | path {m : QueryModel} (c : Construction) {names : List String} {ops : List ResultOperator}
      (h : extendInclude? names m.operators.reverse = some ops) :
      Step process ⟨m, c⟩ [] ⟨{ m with operators := ops.reverse }, c⟩

/-- Steps one after the other, with all that they record. -/
inductive Run (process : Expr → BuildM Expr) : Draft → List Entry → Draft → Prop where
  | refl (s : Draft) : Run process s [] s
  | step {s t u : Draft} {l l' : List Entry} (h : Step process s l t) (hrest : Run process t l' u) :
      Run process s (l ++ l') u

/-- Processing an expression only adds to the arena. -/
def Extending (process : Expr → BuildM Expr) : Prop :=
  ∀ e c e' d, process e c = .ok (e', d) → c.arena.Extends d.arena

section

variable {process : Expr → BuildM Expr} {s t u : Draft} {l l' : List Entry}

theorem Step.run (h : Step process s l t) : Run process s l t := by
  simpa using Run.step h (.refl t)

theorem Run.trans (h : Run process s l t) (h' : Run process t l' u) :
    Run process s (l ++ l') u := by
  induction h with
  | refl => exact h'
  | step hstep _ ih =>
    rw [List.append_assoc]
    exact .step hstep (ih h')

theorem Step.extends (hp : Extending process) (h : Step process s l t) :
    s.construction.arena.Extends t.construction.arena := by
  cases h with
  | process h => exact hp _ _ _ _ h
  | rename => exact Arena.extends_renameSource ..
  | source => exact Arena.extends_addSource ..
  | wrap => exact (Arena.extends_addModel ..).trans (Arena.extends_addSource ..)
  | clause | select | ordering | operator | path => exact .refl _

theorem Run.extends (hp : Extending process) (h : Run process s l t) :
    s.construction.arena.Extends t.construction.arena := by
  induction h with
  | refl => exact .refl _
  | step hstep _ ih => exact (hstep.extends hp).trans ih

end

/-! ### Arguments and entries -/

/-- What an operator takes of an argument: all of it, what conversions and quotes leave, or the body
of its lambda with values in the place of the parameters. -/
inductive Stems (arg : Expr) : Expr → Prop where
  | whole : Stems arg arg
  | stripped : Stems arg arg.strip
  | body {ps : List String} {body : Expr} (values : List Expr) (h : arg.strip = .lambda ps body) :
      Stems arg (body.substitute (Bindings.ofPairs (ps.zip values)))

/-- The expression is what has become of an argument. -/
def Makes (process : Expr → BuildM Expr) (arg e : Expr) : Prop :=
  ∃ taken c d, Stems arg taken ∧ process taken c = .ok (e, d)

/-- The expression, or the sequence of the source, is what has become of an argument. -/
def Fills (process : Expr → BuildM Expr) (a : Arena) (arg : Expr) : Expr ⊕ SourceId → Prop
  | .inl e => Makes process arg e
  | .inr s => ∃ src, a.source? s = some src ∧ Makes process arg src.origin

/-- The entry records the operator with what has become of each argument. -/
structure Realizes (process : Expr → BuildM Expr) (a : Arena) (call : OperatorCall)
    (entry : Entry) : Prop where
  kind : entry.kind = call.kind
  type : entry.type = call.targetType?
  parts : List.Forall₂ (Fills process a) call.args (entry.parts.take call.args.length)

/-- Something has become of the argument, or there is nothing to be made of it. -/
def Handled (process : Expr → BuildM Expr) (arg : Expr) : Prop :=
  (∃ e, Makes process arg e) ∨ arg.CallFree

/-- From one draft to the other, the operators are recorded and the arguments are handled. -/
def Records (process : Expr → BuildM Expr) (s : Draft) (calls : List OperatorCall)
    (args : List Expr) (t : Draft) : Prop :=
  ∃ entries, Run process s entries t ∧
    List.Forall₂ (Realizes process t.construction.arena) calls entries ∧
    ∀ arg ∈ args, Handled process arg

section

variable {process : Expr → BuildM Expr} {a b : Arena} {s t u : Draft} {arg e : Expr}

theorem Makes.handled (h : Makes process arg e) : Handled process arg := .inl ⟨e, h⟩

theorem Realizes.extend {call : OperatorCall} {entry : Entry} (h : Realizes process a call entry)
    (hab : a.Extends b) : Realizes process b call entry := by
  refine ⟨h.kind, h.type, h.parts.imp fun arg part hpart => ?_⟩
  cases part with
  | inl e => exact hpart
  | inr s =>
    obtain ⟨src, hs, hmakes⟩ := hpart
    obtain ⟨src', hs', heq⟩ := hab.origins s src hs
    exact ⟨src', hs', heq ▸ hmakes⟩

theorem Records.refl (s : Draft) : Records process s [] [] s := ⟨[], .refl s, .nil, by simp⟩

theorem Records.trans (hp : Extending process) {calls calls' : List OperatorCall}
    {args args' : List Expr}
    (h : Records process s calls args t) (h' : Records process t calls' args' u) :
    Records process s (calls ++ calls') (args ++ args') u := by
  obtain ⟨entries, hrun, hcalls, hargs⟩ := h
  obtain ⟨entries', hrun', hcalls', hargs'⟩ := h'
  refine ⟨entries ++ entries', hrun.trans hrun', ?_, List.forall_mem_append.mpr ⟨hargs, hargs'⟩⟩
  exact List.rel_append (hcalls.imp fun _ _ h => h.extend (hrun'.extends hp)) hcalls'

end

end Construction

end QueryTree
