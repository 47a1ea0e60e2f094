import QueryTree.Directive.Context
import QueryTree.Model.Exposure
import QueryTree.Navigation

/-! Include plans: the steps that attach related entities to the entities of a source. References
are loaded with the entity and taken from numbered slots; a collection is loaded apart. -/

namespace QueryTree

structure CollectionLoad where
  id : Nat
  tracking : Bool
  /-- The first navigation of the path. -/
  first : Navigation
  /-- The collection itself. -/
  last : Navigation
  source : SourceId
  deriving DecidableEq, Repr

inductive IncludeStep where
  | startTracking
  | reference (path : List String) (navigation : Navigation) (slot : Nat)
  | collection (path : List String) (navigation : Navigation) (load : Nat)
  deriving DecidableEq, Repr

namespace IncludeStep

def path : IncludeStep → List String
  | startTracking => []
  | reference path .. => path
  | collection path .. => path

def isReference : IncludeStep → Bool
  | reference .. => true
  | _ => false

end IncludeStep

structure IncludePlan where
  source : SourceId
  entityType : String
  steps : List IncludeStep
  deriving DecidableEq, Repr

def IncludePlan.referenceCount (p : IncludePlan) : Nat :=
  (p.steps.filter (·.isReference)).length

structure CompiledIncludes where
  plans : List IncludePlan
  collections : List CollectionLoad
  deriving DecidableEq, Repr

namespace CompiledIncludes

def empty : CompiledIncludes := ⟨[], []⟩

def isEmpty (c : CompiledIncludes) : Bool := c.plans.isEmpty

def planFor? (c : CompiledIncludes) (source : SourceId) : Option IncludePlan :=
  c.plans.find? (·.source == source)

end CompiledIncludes

structure BoundInclude where
  source : SourceId
  entityType : String
  navigations : List Navigation

namespace BoundInclude

/-- Only the last navigation may be a collection; other paths are left to the loader. -/
def isSupported (b : BoundInclude) : Bool :=
  !b.navigations.isEmpty && b.navigations.dropLast.all (!·.isCollection)

/-- Collections come first, and paths without a navigation to a principal before the others. -/
def rank (b : BoundInclude) : Nat :=
  (if b.navigations.any (·.isCollection) then 0 else 2)
    + (if b.navigations.any (·.toPrincipal) then 1 else 0)

end BoundInclude

namespace Include

/-- The navigations along a path from an entity type, each with its target known. -/
def bindPath (find : EntityLookup) (entity : EntityType) : List String → Option (List Navigation)
  | [] => some []
  | name :: names => do
    let navigation ← entity.navigation? name
    let target ← find navigation.target
    let rest ← bindPath find target names
    some (navigation :: rest)

def bound? (a : Arena) (find : EntityLookup) (source : SourceId) (path : List String) :
    Option BoundInclude := do
  let entityType ← a.entityType? source
  let entity ← find entityType
  let navigations ← bindPath find entity path
  if navigations.isEmpty then none else some ⟨source, entityType, navigations⟩

/-- The includes on sources of the result, bound up to the first that cannot be, and the paths of
those that are skipped because their source is not part of the result. -/
def bindAll (a : Arena) (find : EntityLookup) (results : List SourceId) :
    List (AppliedDirective × List String) → Except Error (List BoundInclude) × List String
  | [] => (.ok [], [])
  | (applied, path) :: rest =>
    let text := ".".intercalate path
    if applied.source ∈ results then
      match bound? a find applied.source path with
      | none => (.error (.includeNotBindable text), [])
      | some b =>
        let (bs, skipped) := bindAll a find results rest
        (bs.map fun bs => if b.isSupported then b :: bs else bs, skipped)
    else
      let (bs, skipped) := bindAll a find results rest
      (bs, text :: skipped)

/-- By rank; includes of one rank keep their order. -/
def ranked (bs : List BoundInclude) : List BoundInclude :=
  (List.range 4).flatMap fun r => bs.filter (·.rank == r)

/-- A plan in the making, with the collections of all plans. -/
abbrev Draft := IncludePlan × List CollectionLoad

/-- Adds the step for the end of a path, unless the plan has it. -/
def addStep (tracking : Bool) (b : BoundInclude) (path : List String) (navigation : Navigation)
    (draft : Draft) : Draft :=
  let (plan, loads) := draft
  if plan.steps.any (·.path == path) then draft
  else if navigation.isCollection then
    let id := loads.length
    let first := b.navigations.headD navigation
    ({ plan with steps := plan.steps ++ [.collection path navigation id] },
      loads ++ [⟨id, tracking, first, navigation, b.source⟩])
  else
    ({ plan with steps := plan.steps ++ [.reference path navigation plan.referenceCount] }, loads)

/-- Adds the steps along a path; `front` is the part already passed. -/
def addSteps (tracking : Bool) (b : BoundInclude) (front : List String) :
    List Navigation → Draft → Draft
  | [], draft => draft
  | navigation :: rest, draft =>
    let path := front ++ [navigation.name]
    addSteps tracking b path rest (addStep tracking b path navigation draft)

def newPlan (tracking : Bool) (b : BoundInclude) : IncludePlan :=
  ⟨b.source, b.entityType, if tracking then [.startTracking] else []⟩

/-- Puts a plan in the place of the one for its source, or at the end. -/
def setPlan (plan : IncludePlan) : List IncludePlan → List IncludePlan
  | [] => [plan]
  | p :: ps => if p.source = plan.source then plan :: ps else p :: setPlan plan ps

def addInclude (tracking : Bool) (c : CompiledIncludes) (b : BoundInclude) : CompiledIncludes :=
  let plan := (c.planFor? b.source).getD (newPlan tracking b)
  let (plan, loads) := addSteps tracking b [] b.navigations (plan, c.collections)
  ⟨setPlan plan c.plans, loads⟩

def assemble (tracking : Bool) (bs : List BoundInclude) : CompiledIncludes :=
  (ranked bs).foldl (addInclude tracking) .empty

/-- The plans for the includes of a query, and the paths that were skipped. A scalar result has no
entities to attach anything to. -/
def compile (a : Arena) (root : ModelId) (context : CompilationContext) (find : EntityLookup) :
    Except Error CompiledIncludes × List String :=
  if context.includes.isEmpty then (.ok .empty, [])
  else
    match a.model root with
    | .error e => (.error e, [])
    | .ok m =>
      if m.isScalar then (.ok .empty, [])
      else
        match a.resultSources root with
        | .error e => (.error e, [])
        | .ok results =>
          let (bs, skipped) := bindAll a find results context.includes
          (bs.map (assemble context.isTracking), skipped)

end Include

end QueryTree
