import QueryTree.Folding
import QueryTree.Normal.Comparison
import QueryTree.Normal.Invocation
import QueryTree.Normal.Negation
import QueryTree.Normal.StringTest

/-! Passes over expressions, and pipelines of them. -/

namespace QueryTree

structure Pass where
  name : String
  run : Expr → Except Error Expr

namespace Pass

def comparisons : Pass := ⟨"dialect", fun e => .ok (Normal.comparisons e)⟩

def invocations (limit : Nat) : Pass := ⟨"inline_invocations", Normal.invocations limit⟩

def stringTests : Pass := ⟨"string_predicates", fun e => .ok (Normal.stringTests e)⟩

def negations : Pass := ⟨"negation", fun e => Normal.negations e false⟩

def foldConstants (folder : Folder) : Pass := ⟨"fold_constants", fun e => .ok (folder.fold e)⟩

/-- Runs passes one after the other, up to the first error. -/
def runAll : List Pass → Expr → Except Error Expr
  | [], e => .ok e
  | p :: ps, e => do
    let e ← p.run e
    runAll ps e

def pipeline (passes : List Pass) : Pass := ⟨"normalize", runAll passes⟩

def standard (limit : Nat) : List Pass := [comparisons, invocations limit, stringTests, negations]

def normalize (limit : Nat) : Pass := pipeline (standard limit)

/-- A pass or pipeline by its name; `empty` is the pipeline without passes. -/
def ofName? (limit : Nat) (ambient : Ambient) (name : String) : Option Pass :=
  if name = "empty" then some (pipeline [])
  else
    (normalize limit :: foldConstants (.standard ambient) :: standard limit).find? (·.name == name)

end Pass

end QueryTree
