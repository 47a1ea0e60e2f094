import QueryTree.Association
import QueryTree.Eval.Interpreter

/-! The values of query parameters, in the order in which they were added. -/

namespace QueryTree

inductive Binding where
  | value (v : Value)
  /-- A lambda over the session, evaluated each time the query runs. -/
  | accessor (lambda : Expr)

/-- Parameters by name, in insertion order. -/
abbrev ParameterStore := List (String × Binding)

namespace ParameterStore

/-- Adds a parameter; one of the same name is replaced where it stands. -/
def add (store : ParameterStore) (name : String) (binding : Binding) : ParameterStore :=
  upsert name binding store

def get? (store : ParameterStore) (name : String) : Option Binding := store.lookup name

def value? (store : ParameterStore) (name : String) : Option Value :=
  match store.get? name with
  | some (.value v) => some v
  | _ => none

def names (store : ParameterStore) : List String := store.map (·.1)

def resolveBinding (ip : Interpreter) (context : Value) : Binding → Except EvalError Value
  | .value v => .ok v
  | .accessor lambda => ip.evaluate (.invoke lambda [.constant context])

/-- The values of all parameters for one session, up to the first that has none. -/
def resolve (ip : Interpreter) (context : Value) :
    ParameterStore → Except EvalError (List (String × Value))
  | [] => .ok []
  | (name, binding) :: rest => do
    let v ← resolveBinding ip context binding
    let vs ← resolve ip context rest
    .ok ((name, v) :: vs)

end ParameterStore

end QueryTree
