import QueryTree.Association
import QueryTree.Method
import QueryTree.Operator.Kind

/-! Which method is which operator. A registry asks its providers in the order of their priority;
the first that knows a method decides. -/

namespace QueryTree

structure Provider where
  name : String
  /-- Providers of higher priority are asked first. -/
  priority : Nat
  lookup : Method → Option OperatorKind

/-- Kinds by signature; every signature occurs once. -/
abbrev SignatureTable := List (Signature × OperatorKind)

namespace SignatureTable

def add (t : SignatureTable) (s : Signature) (kind : OperatorKind) : SignatureTable :=
  upsert s kind t

/-- The standard operators, on queries and on sequences in memory, and the directives. -/
def standard : SignatureTable :=
  (OperatorKind.standard.flatMap fun (name, kind, arities) =>
    arities.flatMap fun arity =>
      [((Method.queryable name arity).signature, kind),
       ((Method.enumerable name arity).signature, kind)])
  ++ [(Method.asTracking.signature, .tracking true),
      (Method.asNoTracking.signature, .tracking false),
      (Method.tagWith.signature, .tag),
      (Method.ignoreQueryFilters.signature, .ignoreFilters),
      (Method.includeNavigation.signature, .includeLambda),
      (Method.includeAsync.signature, .includeLambda),
      (Method.includeString.signature, .includeString),
      (Method.thenInclude.signature, .thenInclude),
      (Method.thenIncludeAsync.signature, .thenInclude)]

/-- Closed forms of a method are found by their open definition. -/
def provider (t : SignatureTable) : Provider := ⟨"signature", 100, fun m => t.lookup m.signature⟩

end SignatureTable

namespace Provider

/-- Asked for a priority by nobody, a provider takes the middle. -/
def defaultPriority : Nat := 50

/-- Kinds by the bare name of a method; of entries with one name the first counts. -/
def ofNames (name : String) (priority : Nat) (names : List (String × OperatorKind)) : Provider :=
  ⟨name, priority, fun m => names.lookup m.name⟩

/-- The fallback by name; of entries with one name the last counts. -/
def byName (names : List (String × OperatorKind)) : Provider := ofNames "name" 10 names.reverse

/-- The names of directives, for owners that no table lists. -/
def conventional : Provider :=
  byName (OperatorKind.directives.filter (·.1 ≠ "IncludeString"))

end Provider

/-- Providers by falling priority; among equals the one registered first comes first. -/
structure Registry where
  providers : List Provider

namespace Registry

def empty : Registry := ⟨[]⟩

/-- Puts a provider behind all that are not of lower priority. -/
def insertProvider (p : Provider) : List Provider → List Provider
  | [] => [p]
  | q :: qs => if q.priority < p.priority then p :: q :: qs else q :: insertProvider p qs

def register (r : Registry) (p : Provider) : Registry := ⟨insertProvider p r.providers⟩

def registerMethods (r : Registry) (methods : List Signature) (kind : OperatorKind) : Registry :=
  r.register (SignatureTable.provider (methods.foldl (fun t s => SignatureTable.add t s kind) []))

def standard : Registry :=
  (empty.register SignatureTable.standard.provider).register .conventional

def lookup (r : Registry) (m : Method) : Option OperatorKind :=
  r.providers.findSome? (·.lookup m)

def names (r : Registry) : List String := r.providers.map (·.name)

end Registry

end QueryTree
