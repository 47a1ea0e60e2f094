import QueryTree.Directive.Extraction
import QueryTree.Cache.Basic
import QueryTree.Cache.Key
import QueryTree.Include.Plan
import QueryTree.Model.Construction
import QueryTree.Parameter.Extraction
import QueryTree.Settings

/-! The whole way from an expression to a compiled query: normal form, parameters, models,
directives, includes. Compiled queries are cached by shape. -/

namespace QueryTree

/-- A query in the form that a provider executes. -/
structure TranslatedQuery where
  arena : Arena
  root : ModelId
  context : CompilationContext
  includes : CompiledIncludes
  deriving DecidableEq

structure CompiledQuery where
  query : TranslatedQuery
  keyspace : Keyspace
  key : QueryKey
  deriving DecidableEq

abbrev QueryCache := Cache QueryKey CompiledQuery

structure Compiler where
  settings : Settings
  extractor : Extractor
  entities : EntityLookup
  ambient : Ambient
  /-- How deep invocations and subqueries may nest. -/
  limit : Nat

namespace Extractor

def withSettings (x : Extractor) (s : Settings) : Extractor :=
  { x with
    parameterize := s.parameterize
    contextAccessors := s.contextAccessors
    showSensitive := s.showSensitive }

end Extractor

/-- The normal form is optional, constants are always folded. -/
def Builder.ofSettings (registry : Registry) (s : Settings) (limit : Nat) (ambient : Ambient) :
    Builder :=
  let folding := Pass.foldConstants (.standard ambient)
  ⟨registry, if s.normalizeInBuilder then [.normalize limit, folding] else [folding]⟩

structure Compiled where
  result : Except Error CompiledQuery
  store : ParameterStore
  cache : QueryCache
  /-- The paths of includes that were skipped. -/
  skipped : List String
  /-- Whether the query was translated now, and not taken from the cache. -/
  fresh : Bool

namespace Compiler

def ofSettings (entities : EntityLookup) (s : Settings) (limit : Nat) (ambient : Ambient) :
    Compiler :=
  ⟨s, (Extractor.standard ambient).withSettings s, entities, ambient, limit⟩

def withContext (c : Compiler) (context : Value) : Compiler :=
  { c with
    extractor :=
      ({ Extractor.standard c.ambient with
          interpreter := (Interpreter.builtin c.ambient).withContext context }
        : Extractor).withSettings c.settings }

def withExtractor (c : Compiler) (x : Extractor) : Compiler := { c with extractor := x }

def builder (c : Compiler) (registry : Registry) : Builder :=
  .ofSettings registry c.settings c.limit c.ambient

/-- The shape of a query: its normal form with the parameters taken out. -/
def prepare (c : Compiler) (e : Expr) (store : ParameterStore) :
    Except Error Expr × ParameterStore :=
  match (Pass.normalize c.limit).run e with
  | .error error => (.error error, store)
  | .ok e => c.extractor.extract e store

/-- The query of a shape, and the paths of includes that were skipped. -/
def translate (c : Compiler) (registry : Registry) (shape : Expr) :
    Except Error TranslatedQuery × List String :=
  match (c.builder registry).build c.limit shape with
  | .error error => (.error error, [])
  | .ok built =>
    let context := CompilationContext.ofDefault c.settings.defaultTracking
    match AppliedDirective.extract built.root (built.arena, context) with
    | (.error error, _) => (.error error, [])
    | (.ok (), arena, context) =>
      let (includes, skipped) := Include.compile arena built.root context c.entities
      (includes.map fun includes => ⟨arena, built.root, context, includes⟩, skipped)

def compile (c : Compiler) (registry : Registry) (keyspace : Keyspace) (e : Expr)
    (store : ParameterStore) (cache : QueryCache) : Compiled :=
  match c.prepare e store with
  | (.error error, store) => ⟨.error error, store, cache, [], false⟩
  | (.ok shape, store) =>
    let key : QueryKey := ⟨shape, c.settings.defaultTracking, keyspace == .async⟩
    let (query, skipped) := c.translate registry shape
    let run (cache : QueryCache) :=
      (query.map fun query => (⟨query, keyspace, key⟩ : CompiledQuery), cache)
    let ((result, ran), cache) := cache.getOrAdd keyspace key run
    ⟨result, store, cache, if ran then skipped else [], ran⟩

end Compiler

end QueryTree
