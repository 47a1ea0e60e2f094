import QueryTree.Association
import QueryTree.Expr.Basic

/-! Free variables, and substitution that avoids capture. -/

namespace QueryTree

/-- Expressions for names; every name occurs once. -/
abbrev Bindings := List (String × Expr)

namespace Bindings

/-- Of several pairs with one name the last counts. -/
def ofPairs (pairs : List (String × Expr)) : Bindings :=
  pairs.foldl (fun bindings pair => upsert pair.1 pair.2 bindings) []

end Bindings

namespace Expr

mutual

/-- The variables that no lambda of the tree binds, one entry for each occurrence. -/
def freeVars : Expr → List String
  | var name => [name]
  | member t _ => t.freeVars
  | call t _ args => t.freeVars ++ freeVarsOf args
  | staticCall _ args => freeVarsOf args
  | unary _ e => e.freeVars
  | binary _ l r => l.freeVars ++ r.freeVars
  | lambda ps b => b.freeVars.filter (· ∉ ps)
  | conditional t a b => t.freeVars ++ a.freeVars ++ b.freeVars
  | invoke c args => c.freeVars ++ freeVarsOf args
  | _ => []

def freeVarsOf : List Expr → List String
  | [] => []
  | e :: es => e.freeVars ++ freeVarsOf es

end

/-- The first of `base_1`, `base_2`, … that is not taken; one of the first `taken.length + 1` is
not. -/
def freshName (base : String) (taken : List String) : String :=
  let candidates := (List.range (taken.length + 1)).map fun n => base ++ "_" ++ toString (n + 1)
  (candidates.find? (· ∉ taken)).getD base

/-- Parameters that an incoming variable would be captured by get fresh names; `active` receives
the renaming. -/
def renameParams (incoming : List String) :
    List String → List String → Bindings → List String × Bindings
  | [], _, active => ([], active)
  | p :: ps, taken, active =>
    if p ∈ incoming then
      let fresh := freshName p taken
      let (rest, renamed) :=
        renameParams incoming ps (fresh :: taken) (upsert p (var fresh) active)
      (fresh :: rest, renamed)
    else
      let (rest, renamed) := renameParams incoming ps taken active
      (p :: rest, renamed)

mutual

/-- Replaces free variables by expressions. A lambda shadows the names it binds, and its
parameters are renamed where they would capture a variable of a replacement. -/
def substitute : Expr → Bindings → Expr
  | var name, bindings => (bindings.lookup name).getD (var name)
  | member t m, bindings => member (t.substitute bindings) m
  | call t m args, bindings => call (t.substitute bindings) m (substituteAll args bindings)
  | staticCall m args, bindings => staticCall m (substituteAll args bindings)
  | unary op e, bindings => unary op (e.substitute bindings)
  | binary op l r, bindings => binary op (l.substitute bindings) (r.substitute bindings)
  | lambda ps b, bindings =>
    let active := bindings.filter (·.1 ∉ ps)
    if active.isEmpty then lambda ps b
    else
      let incoming := active.flatMap (·.2.freeVars)
      let (renamed, inner) := renameParams incoming ps (incoming ++ b.freeVars ++ ps) active
      lambda renamed (b.substitute inner)
  | conditional t a b, bindings =>
    conditional (t.substitute bindings) (a.substitute bindings) (b.substitute bindings)
  | invoke c args, bindings => invoke (c.substitute bindings) (substituteAll args bindings)
  | e, _ => e

def substituteAll : List Expr → Bindings → List Expr
  | [], _ => []
  | e :: es, bindings => e.substitute bindings :: substituteAll es bindings

end

end Expr

end QueryTree
