import QueryTree.Expr.Scope
import QueryTree.Model.Arena
import QueryTree.Normal.Pass
import QueryTree.Operator.Call
import QueryTree.Text.Blank

/-! Construction of query models from operator chains. The operators are applied from the root
outward; each adds a clause, replaces the select expression or adds a result operator. The
parameters of their lambdas are replaced by what they range over, and chains nested in their
arguments become subqueries. -/

namespace QueryTree

/-- The arena under construction, and the sources that have no name of their own yet. -/
structure Construction where
  arena : Arena
  generated : List SourceId

abbrev BuildM := StateT Construction (Except Error)

structure Lambda where
  params : List String
  body : Expr

namespace Construction

def fail {α : Type} (m : Method) (fault : ArgumentFault) : BuildM α :=
  throw (.invalidArguments m.name fault)

def addModel (m : QueryModel) : BuildM ModelId := fun c =>
  let (id, arena) := c.arena.addModel m
  .ok (id, { c with arena := arena })

def addSource (s : QuerySource) : BuildM SourceId := fun c =>
  let (id, arena) := c.arena.addSource s
  .ok (id, { c with arena := arena })

/-- A source that takes over the first lambda parameter that ranges over it. -/
def addGenerated (kind : SourceKind) (origin : Expr) (itemType : Option String) :
    BuildM SourceId := fun c =>
  let name := "<generated>_" ++ toString c.arena.sources.length
  let (id, arena) := c.arena.addSource ⟨name, kind, origin, itemType⟩
  .ok (id, ⟨arena, id :: c.generated⟩)

def rootType? (origin : Expr) : Option String :=
  match origin.strip with
  | .entityQuery entity => some entity
  | _ => none

def addNamed (name : String) (kind : SourceKind) (origin : Expr) : BuildM SourceId :=
  addSource ⟨name, kind, origin, rootType? origin⟩

/-- A generated name gives way to the name of a lambda parameter. -/
def adoptName (select : Expr) (name : String) : BuildM Unit := fun c =>
  match select with
  | .sourceRef id =>
    if id ∈ c.generated then
      .ok ((), ⟨c.arena.renameSource id name, c.generated.filter (· ≠ id)⟩)
    else .ok ((), c)
  | _ => .ok ((), c)

def itemType? (select : Expr) : BuildM (Option String) := fun c =>
  match select.strip with
  | .sourceRef id => .ok ((c.arena.source? id).bind (·.itemType), c)
  | _ => .ok (none, c)

/-- Makes a model a subquery and starts a new model over its items. -/
def wrap (m : QueryModel) : BuildM QueryModel := do
  let itemType ← if m.groupSource?.isSome then pure none else itemType? m.select
  let inner ← addModel m
  let source ← addGenerated .mainFrom (.subQuery inner) itemType
  pure (.ofSource source)

/-- Clauses come before operators: a model with an operator is wrapped. -/
def clausePosition (m : QueryModel) : BuildM QueryModel :=
  if m.lastOperator?.isSome then wrap m else pure m

/-- A lambda over items does not range over groups: a grouped model is wrapped. -/
def itemPosition (m : QueryModel) : BuildM QueryModel :=
  if m.groupSource?.isSome then wrap m else pure m

/-! ### Arguments -/

def noArgs (m : Method) (args : List Expr) : BuildM Unit :=
  if args.isEmpty then pure () else fail m (.wrongCount 0 args.length)

def oneArg (m : Method) : List Expr → BuildM Expr
  | [a] => pure a
  | args => fail m (.wrongCount 1 args.length)

def optionalArg (m : Method) : List Expr → BuildM (Option Expr)
  | [] => pure none
  | [a] => pure (some a)
  | args => fail m (.tooMany args.length)

def lambdaArg (m : Method) (arity : Nat) (arg : Expr) : BuildM Lambda :=
  match arg.strip with
  | .lambda ps body =>
    if ps.length = arity then pure ⟨ps, body⟩ else fail m (.notLambda arity (.lambda ps body))
  | other => fail m (.notLambda arity other)

def optionalLambda (m : Method) (arity : Nat) : Option Expr → BuildM (Option Lambda)
  | none => pure none
  | some arg => do
    let lambda ← lambdaArg m arity arg
    pure (some lambda)

/-- The navigations read off a parameter, from the parameter outward; `names` are those already
passed. -/
def navigationFrom (param : Option String) : Expr → List String → Except ArgumentFault (List String)
  | .unary (.convert _) e, names => navigationFrom param e names
  | .unary .quote e, names => navigationFrom param e names
  | .member t m, names => navigationFrom param t (m.name :: names)
  | .var name, names =>
    if param = some name ∧ names ≠ [] then .ok names else .error (.notNavigation (.var name))
  | e, _ => .error (.notNavigation e)

def navigation (m : Method) (lambda : Lambda) : BuildM (List String) :=
  match navigationFrom lambda.params.head? lambda.body [] with
  | .ok names => pure names
  | .error fault => fail m fault

/-- The segments of a dotted path, without blanks around them. -/
def pathSegments (path : String) : List String :=
  ((path.toList.splitOn '.').map String.ofList).map Text.trim

/-! ### Lambdas -/

def bind (process : Expr → BuildM Expr) (lambda : Lambda) (values : List Expr) : BuildM Expr :=
  process (lambda.body.substitute (Bindings.ofPairs (lambda.params.zip values)))

def adoptParam (m : QueryModel) (lambda : Lambda) : BuildM Unit :=
  match lambda.params with
  | [] => pure ()
  | p :: _ => adoptName m.select p

def resolve (process : Expr → BuildM Expr) (m : QueryModel) (lambda : Lambda) : BuildM Expr := do
  adoptParam m lambda
  bind process lambda [m.select]

/-! ### Operators -/

def filter (process : Expr → BuildM Expr) (m : QueryModel) (method : Method) (predicate : Expr) :
    BuildM QueryModel := do
  let lambda ← lambdaArg method 1 predicate
  let m ← clausePosition m
  let predicate ← resolve process m lambda
  pure (m.addClause (.filter predicate))

def filterIf (process : Expr → BuildM Expr) (m : QueryModel) (method : Method) :
    Option Expr → BuildM QueryModel
  | none => pure m
  | some predicate => filter process m method predicate

def select (process : Expr → BuildM Expr) (m : QueryModel) (method : Method) (selector : Expr) :
    BuildM QueryModel := do
  let lambda ← lambdaArg method 1 selector
  let m ← clausePosition m
  let selected ← resolve process m lambda
  pure { m with select := selected }

def selectIf (process : Expr → BuildM Expr) (m : QueryModel) (method : Method) :
    Option Expr → BuildM QueryModel
  | none => pure m
  | some selector => select process m method selector

/-- The collection is a further source; without a result lambda its items are selected. -/
def selectMany (process : Expr → BuildM Expr) (m : QueryModel) (method : Method)
    (collection : Expr) (result : Option Expr) : BuildM QueryModel := do
  let collection ← lambdaArg method 1 collection
  let result ← optionalLambda method 2 result
  let m ← clausePosition m
  let origin ← resolve process m collection
  match result with
  | none =>
    let source ← addGenerated .additionalFrom origin none
    pure { m.addClause (.additionalFrom source) with select := .sourceRef source }
  | some result =>
    let source ← addNamed (result.params.getD 1 "") .additionalFrom origin
    adoptParam m result
    let selected ← bind process result [m.select, .sourceRef source]
    pure { m.addClause (.additionalFrom source) with select := selected }

def selectManyArgs (process : Expr → BuildM Expr) (m : QueryModel) (method : Method) :
    List Expr → BuildM QueryModel
  | [collection] => selectMany process m method collection none
  | [collection, result] => selectMany process m method collection (some result)
  | _ => fail method .collectionSelectors

def join (process : Expr → BuildM Expr) (grouped : Bool) (m : QueryModel) (method : Method) :
    List Expr → BuildM QueryModel
  | [inner, outerKey, innerKey, result] => do
    let outerKey ← lambdaArg method 1 outerKey
    let innerKey ← lambdaArg method 1 innerKey
    let result ← lambdaArg method 2 result
    let m ← clausePosition m
    let origin ← process inner.strip
    let source ←
      addNamed (innerKey.params.headD "") (if grouped then .groupJoin else .join) origin
    let outer ← resolve process m outerKey
    let inner ← bind process innerKey [.sourceRef source]
    let selected ← bind process result [m.select, .sourceRef source]
    pure { m.addClause (.join grouped source outer inner) with select := selected }
  | args => fail method (.wrongCount 4 args.length)

def orderBy (process : Expr → BuildM Expr) (descending : Bool) (m : QueryModel) (method : Method)
    (key : Expr) : BuildM QueryModel := do
  let lambda ← lambdaArg method 1 key
  let m ← clausePosition m
  let key ← resolve process m lambda
  pure (m.addClause (.orderBy [⟨key, descending⟩]))

def extendOrdering (key : SortKey) : List Clause → List Clause
  | [] => []
  | [.orderBy keys] => [.orderBy (keys ++ [key])]
  | c :: cs => c :: extendOrdering key cs

def endsInOrdering (m : QueryModel) : Bool :=
  m.lastOperator?.isNone &&
    match m.clauses.getLast? with
    | some (.orderBy _) => true
    | _ => false

def thenBy (process : Expr → BuildM Expr) (descending : Bool) (m : QueryModel) (method : Method)
    (key : Expr) : BuildM QueryModel := do
  let lambda ← lambdaArg method 1 key
  if endsInOrdering m then
    let key ← resolve process m lambda
    pure { m with clauses := extendOrdering ⟨key, descending⟩ m.clauses }
  else fail method .noOrdering

/-- Without an element lambda the items are grouped as they are. -/
def groupBy (process : Expr → BuildM Expr) (m : QueryModel) (method : Method) (key : Expr)
    (element : Option Expr) : BuildM QueryModel := do
  let key ← lambdaArg method 1 key
  let element ← optionalLambda method 1 element
  let m ← itemPosition m
  let key ← resolve process m key
  let element ←
    match element with
    | none => pure m.select
    | some element => resolve process m element
  let source ← addGenerated .groupResult element none
  pure (m.addOperator (.groupBy key element source))

def groupByArgs (process : Expr → BuildM Expr) (m : QueryModel) (method : Method) :
    List Expr → BuildM QueryModel
  | [key] => groupBy process m method key none
  | [key, element] => groupBy process m method key (some element)
  | _ => fail method .groupSelectors

def includeSource? (m : QueryModel) : Option SourceId :=
  match m.select with
  | .sourceRef id => some id
  | _ => none

def includeLambda (m : QueryModel) (method : Method) (arg : Expr) : BuildM QueryModel := do
  let lambda ← lambdaArg method 1 arg
  let path ← navigation method lambda
  adoptParam m lambda
  pure (m.addOperator (.includes (includeSource? m) path))

def includeString (m : QueryModel) (method : Method) (arg : Expr) : BuildM QueryModel :=
  match arg.strip with
  | .constant (.string path) =>
    if "" ∈ pathSegments path then fail method .emptyNavigation
    else pure (m.addOperator (.includes (includeSource? m) (pathSegments path)))
  | other => fail method (.pathNotConstant other)

/-- Extends the path of the last include; the operators are given from the last to the first. -/
def extendInclude? (path : List String) : List ResultOperator → Option (List ResultOperator)
  | [] => none
  | .includes source front :: ops => some (.includes source (front ++ path) :: ops)
  | op :: ops => (extendInclude? path ops).map (op :: ·)

def thenInclude (m : QueryModel) (method : Method) (arg : Expr) : BuildM QueryModel := do
  let lambda ← lambdaArg method 1 arg
  let path ← navigation method lambda
  match extendInclude? path m.operators.reverse with
  | some ops => pure { m with operators := ops.reverse }
  | none => fail method .noInclude

def tagWith (m : QueryModel) (method : Method) (arg : Expr) : BuildM QueryModel :=
  match arg.strip with
  | .constant (.string text) => pure (m.addOperator (.tag text))
  | other => fail method (.tagNotConstant other)

def targetType (method : Method) : BuildM String :=
  match method.generics with
  | type :: _ => pure type
  | [] => fail method .noTargetType

/-- Lambdas of one parameter range over the items, other arguments are taken as they are. -/
def customArgs (process : Expr → BuildM Expr) (m : QueryModel) : List Expr → BuildM (List Expr)
  | [] => pure []
  | arg :: args => do
    let e ←
      match arg.strip with
      | .lambda [p] body => resolve process m ⟨[p], body⟩
      | other => process other
    let es ← customArgs process m args
    pure (e :: es)

def apply (process : Expr → BuildM Expr) (m : QueryModel) (call : OperatorCall) :
    BuildM QueryModel := do
  let method := call.method
  let args := call.args
  match call.kind with
  | .filter => filter process m method (← oneArg method args)
  | .select => select process m method (← oneArg method args)
  | .selectMany => selectManyArgs process m method args
  | .join grouped => join process grouped m method args
  | .orderBy descending => orderBy process descending m method (← oneArg method args)
  | .thenBy descending => thenBy process descending m method (← oneArg method args)
  | .groupBy => groupByArgs process m method args
  | .take =>
    let e ← process (← oneArg method args)
    pure (m.addOperator (.take e))
  | .skip =>
    let e ← process (← oneArg method args)
    pure (m.addOperator (.skip e))
  | .contains =>
    let e ← process (← oneArg method args)
    pure (m.addOperator (.contains e))
  | .element pick orDefault =>
    let m ← filterIf process m method (← optionalArg method args)
    pure (m.addOperator (.element pick orDefault))
  | .count long =>
    let m ← filterIf process m method (← optionalArg method args)
    pure (m.addOperator (.count long))
  | .any =>
    let m ← filterIf process m method (← optionalArg method args)
    pure (m.addOperator .any)
  | .all =>
    let lambda ← lambdaArg method 1 (← oneArg method args)
    let m ← itemPosition m
    let predicate ← resolve process m lambda
    pure (m.addOperator (.all predicate))
  | .aggregate a =>
    let m ← selectIf process m method (← optionalArg method args)
    pure (m.addOperator (.aggregate a))
  | .distinct =>
    noArgs method args
    pure (m.addOperator .distinct)
  | .reverse =>
    noArgs method args
    pure (m.addOperator .reverse)
  | .combine c =>
    let e ← process (← oneArg method args)
    pure (m.addOperator (.combine c e))
  | .cast =>
    noArgs method args
    pure (m.addOperator (.cast (← targetType method)))
  | .ofType =>
    noArgs method args
    pure (m.addOperator (.ofType (← targetType method)))
  | .defaultIfEmpty =>
    match ← optionalArg method args with
    | none => pure (m.addOperator (.defaultIfEmpty none))
    | some arg =>
      let e ← process arg
      pure (m.addOperator (.defaultIfEmpty (some e)))
  | .tracking on =>
    noArgs method args
    pure (m.addOperator (.tracking on))
  | .tag => tagWith m method (← oneArg method args)
  | .ignoreFilters =>
    noArgs method args
    pure (m.addOperator .ignoreFilters)
  | .includeLambda => includeLambda m method (← oneArg method args)
  | .includeString => includeString m method (← oneArg method args)
  | .thenInclude => thenInclude m method (← oneArg method args)
  | .custom name =>
    let es ← customArgs process m args
    pure (m.addOperator (.custom name es))

def applyAll (process : Expr → BuildM Expr) : QueryModel → List OperatorCall → BuildM QueryModel
  | m, [] => pure m
  | m, call :: calls => do
    let m ← apply process m call
    applyAll process m calls

/-! ### Subqueries -/

def addSubquery (build : Expr → BuildM QueryModel) (e : Expr) : BuildM Expr := do
  let m ← build e
  let id ← addModel m
  pure (.subQuery id)

mutual

/-- Makes the outermost operator chains of an expression subqueries. -/
def liftChains (r : Registry) (build : Expr → BuildM QueryModel) (e : Expr) : BuildM Expr :=
  if (r.kind? e.strip).isSome then addSubquery build e
  else
    match e with
    | .member t m => do
      let t ← liftChains r build t
      pure (.member t m)
    | .call t m args => do
      let t ← liftChains r build t
      let args ← liftChainsAll r build args
      pure (.call t m args)
    | .staticCall m args => do
      let args ← liftChainsAll r build args
      pure (.staticCall m args)
    | .unary op e => do
      let e ← liftChains r build e
      pure (.unary op e)
    | .binary op left right => do
      let left ← liftChains r build left
      let right ← liftChains r build right
      pure (.binary op left right)
    | .lambda ps b => do
      let b ← liftChains r build b
      pure (.lambda ps b)
    | .conditional t a b => do
      let t ← liftChains r build t
      let a ← liftChains r build a
      let b ← liftChains r build b
      pure (.conditional t a b)
    | .invoke c args => do
      let c ← liftChains r build c
      let args ← liftChainsAll r build args
      pure (.invoke c args)
    | e => pure e

def liftChainsAll (r : Registry) (build : Expr → BuildM QueryModel) :
    List Expr → BuildM (List Expr)
  | [] => pure []
  | e :: es => do
    let e ← liftChains r build e
    let es ← liftChainsAll r build es
    pure (e :: es)

end

theorem liftChains_of_kind? (r : Registry) (build : Expr → BuildM QueryModel) {e : Expr}
    {kind : OperatorKind} (h : r.kind? e.strip = some kind) :
    liftChains r build e = addSubquery build e := by
  unfold liftChains
  exact if_pos (by simp [h])

/-- An expression that is no chain is kept over its subexpressions. -/
theorem liftChains_eq (r : Registry) (build : Expr → BuildM QueryModel) {e : Expr}
    (h : r.kind? e.strip = none) :
    liftChains r build e = (do
      let es ← liftChainsAll r build e.children
      pure (e.withChildren es)) := by
  unfold liftChains
  rw [if_neg (by simp [h])]
  cases e <;> simp [liftChainsAll, Expr.children, Expr.withChildren]

/-- The model over the root of a chain. A call over a sequence that is no operator is refused. -/
def start (process : Expr → BuildM Expr) (root : Expr) : BuildM QueryModel :=
  match root with
  | .entityQuery entity => do
    let source ← addGenerated .mainFrom root (some entity)
    pure (.ofSource source)
  | .staticCall m (s :: _) =>
    if s.isSequence then throw (.unrecognizedOperator m.text)
    else do
      let origin ← process root
      let source ← addGenerated .mainFrom origin none
      pure (.ofSource source)
  | _ => do
    let origin ← process root
    let source ← addGenerated .mainFrom origin none
    pure (.ofSource source)

end Construction

/-- A query as models; `root` is the outermost. -/
structure BuiltQuery where
  arena : Arena
  root : ModelId

/-- Builds models with a registry of operators; `passes` run on every expression of a model. -/
structure Builder where
  registry : Registry
  passes : List Pass

namespace Builder

open Construction

/-- Nested chains become subqueries, then the passes run. -/
def process (b : Builder) (build : Expr → BuildM QueryModel) (e : Expr) : BuildM Expr := do
  let e ← liftChains b.registry build e
  match Pass.runAll b.passes e with
  | .ok e => pure e
  | .error error => throw error

/-- The model of a chain; `build` makes the models of the chains nested in it. -/
def assemble (b : Builder) (build : Expr → BuildM QueryModel) (e : Expr) : BuildM QueryModel := do
  let (root, calls) := b.registry.chain e
  let m ← start (b.process build) root
  applyAll (b.process build) m calls

/-- The model of a chain in which chains nest at most `limit` deep. -/
def buildChain (b : Builder) : Nat → Expr → BuildM QueryModel
  | 0 => b.assemble fun _ => throw .limitExceeded
  | limit + 1 => b.assemble (b.buildChain limit)

def build (b : Builder) (limit : Nat) (e : Expr) : Except Error BuiltQuery := do
  let (m, c) ← (b.buildChain limit e).run ⟨.empty, []⟩
  let (root, arena) := c.arena.addModel m
  .ok ⟨arena, root⟩

/-- The normal form, then folding of constants. -/
def standard (registry : Registry) (limit : Nat) (ambient : Ambient) : Builder :=
  ⟨registry, [.normalize limit, .foldConstants (.standard ambient)]⟩

end Builder

end QueryTree
