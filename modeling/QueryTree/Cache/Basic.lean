import QueryTree.Association
import QueryTree.Number.Double

/-! A cache of compiled queries. Each key has a cell; a compilation that fails leaves its cell
empty, so that the next call compiles again. -/

namespace QueryTree

inductive Keyspace where
  | sync | async
  deriving DecidableEq, Repr

def Keyspace.label : Keyspace → String
  | sync => "Sync"
  | async => "Async"

/-- Cells by execution mode and key, and counters of the calls that succeeded. -/
structure Cache (K D : Type) where
  entries : List ((Keyspace × K) × Option D)
  hits : Nat
  misses : Nat

namespace Cache

variable {K D E : Type} [DecidableEq K]

def empty : Cache K D := ⟨[], 0, 0⟩

def get? (c : Cache K D) (space : Keyspace) (key : K) : Option D :=
  (c.entries.lookup (space, key)).join

def reserve (c : Cache K D) (space : Keyspace) (key : K) : Cache K D :=
  match c.entries.lookup (space, key) with
  | some _ => c
  | none => { c with entries := c.entries ++ [((space, key), none)] }

def fill (c : Cache K D) (space : Keyspace) (key : K) (d : D) : Cache K D :=
  { c with
    entries := c.entries.map fun entry =>
      if entry.1 = (space, key) then (entry.1, some d) else entry }

/-- The stored result, or that of `compile`, which is then stored. The compilation may use the
cache itself. The flag says whether it ran. -/
def getOrAdd (c : Cache K D) (space : Keyspace) (key : K)
    (compile : Cache K D → Except E D × Cache K D) : (Except E D × Bool) × Cache K D :=
  let c := c.reserve space key
  match c.get? space key with
  | some d => ((.ok d, false), { c with hits := c.hits + 1 })
  | none =>
    match compile c with
    | (.error e, c) => ((.error e, true), c)
    | (.ok d, c) =>
      let c := c.fill space key d
      ((.ok d, true), { c with misses := c.misses + 1 })

def size (c : Cache K D) : Nat := c.entries.length

/-- Drops the cells; the counters go on. -/
def clear (c : Cache K D) : Cache K D := { c with entries := [] }

/-- The share of successful calls that compiled nothing. -/
def hitRate (c : Cache K D) : Number.Double :=
  .ofFloat
    (if c.hits + c.misses = 0 then 0 else Float.ofNat c.hits / Float.ofNat (c.hits + c.misses))

end Cache

end QueryTree
