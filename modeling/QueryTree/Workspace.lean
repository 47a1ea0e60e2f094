import QueryTree.Compilation

/-! Workspaces: compilers that share registries and caches. -/

namespace QueryTree

/-- A compiler, with the places of its registry and its cache. -/
structure Seat where
  compiler : Compiler
  registry : Nat
  cache : Nat

structure Workspace where
  registries : List Registry
  caches : List QueryCache
  seats : List Seat

namespace Workspace

def empty : Workspace := ⟨[], [], []⟩

def registryAt (w : Workspace) (i : Nat) : Registry := (w.registries[i]?).getD .standard

def cacheAt (w : Workspace) (i : Nat) : QueryCache := (w.caches[i]?).getD .empty

def setRegistry (w : Workspace) (i : Nat) (r : Registry) : Workspace :=
  { w with registries := w.registries.set i r }

def setCache (w : Workspace) (i : Nat) (c : QueryCache) : Workspace :=
  { w with caches := w.caches.set i c }

/-- Adds a compiler. It takes over the registry or the cache of the seat it shares it with;
otherwise it gets `registry`, or an empty cache. -/
def add (w : Workspace) (compiler : Compiler) (registry : Registry)
    (registryOf cacheOf : Option Seat) : Workspace :=
  let r := (registryOf.map (·.registry)).getD w.registries.length
  let c := (cacheOf.map (·.cache)).getD w.caches.length
  { registries := if registryOf.isSome then w.registries else w.registries ++ [registry]
    caches := if cacheOf.isSome then w.caches else w.caches ++ [.empty]
    seats := w.seats ++ [⟨compiler, r, c⟩] }

/-- Compiles on a seat; all seats with its cache see the result. -/
def compile (w : Workspace) (s : Seat) (keyspace : Keyspace) (e : Expr) (store : ParameterStore) :
    Compiled × Workspace :=
  let out := s.compiler.compile (w.registryAt s.registry) keyspace e store (w.cacheAt s.cache)
  (out, w.setCache s.cache out.cache)

def clear (w : Workspace) (s : Seat) : Workspace := w.setCache s.cache (w.cacheAt s.cache).clear

end Workspace

end QueryTree
