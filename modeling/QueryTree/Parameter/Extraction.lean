import QueryTree.Error
import QueryTree.Evaluability
import QueryTree.Parameter.Store

/-! Extraction of parameters: each maximal subexpression that may be computed early is replaced by a
named parameter or by a constant, so that queries that differ only in such values have one shape.

A subexpression becomes a parameter if it reads a captured value, or if it stands outside every
lambda; other subexpressions become constants, and so do the arguments of methods that need
literals. -/

namespace QueryTree

structure Extractor where
  policy : Policy
  interpreter : Interpreter
  /-- Whether parameters are made at all; otherwise everything becomes a constant. -/
  parameterize : Bool
  /-- Whether what depends on the session becomes an accessor, evaluated when the query runs. -/
  contextAccessors : Bool
  /-- Whether errors show the expression. -/
  showSensitive : Bool

/-- Whether an expression may move out of the query, and then whether it reads a captured
value. -/
inductive Mobility where
  | stays
  | moves (captured : Bool)
  deriving DecidableEq, Repr

namespace Mobility

def isMoving : Mobility → Bool
  | moves _ => true
  | stays => false

def isCaptured : Mobility → Bool
  | moves captured => captured
  | stays => false

end Mobility

/-- The store under construction, and the parameters that expressions already have. -/
structure Extraction where
  store : ParameterStore
  known : List (Expr × String)

/-- Steps of an extraction; parameters added before an error are kept. -/
abbrev ExtractM := ExceptT Error (StateM Extraction)

namespace Extractor

def standard (ambient : Ambient) : Extractor := ⟨.standard, .builtin ambient, true, false, false⟩

/-- The text after the last `>`, without one leading mark of a captured local. -/
def cleanName (name : String) : String :=
  let tail := (name.toList.reverse.takeWhile (· ≠ '>')).reverse
  let mark := "$VB$Local_".toList
  String.ofList (if mark.isPrefixOf tail then tail.drop mark.length else tail)

/-- A name hint: the chain of members read, or the method called. -/
def baseName? : Expr → Option String
  | .member t m =>
    match baseName? t with
    | some base => some (base ++ "_" ++ m.name)
    | none => some m.name
  | .staticMember m => some m.name
  | .call _ m _ => some m.name
  | .staticCall m _ => some m.name
  | .unary _ e => baseName? e
  | _ => none

/-- A name that ends in the size of the store. -/
def parameterName (base : String) (store : ParameterStore) : String :=
  "__" ++ cleanName base ++ "_" ++ toString store.length

mutual

def abstractContext : Expr → Expr
  | .context => .var "context"
  | .member t m => .member (abstractContext t) m
  | .call t m args => .call (abstractContext t) m (abstractContextAll args)
  | .staticCall m args => .staticCall m (abstractContextAll args)
  | .unary op e => .unary op (abstractContext e)
  | .binary op l r => .binary op (abstractContext l) (abstractContext r)
  | .lambda ps b => .lambda ps (abstractContext b)
  | .conditional t a b => .conditional (abstractContext t) (abstractContext a) (abstractContext b)
  | .invoke c args => .invoke (abstractContext c) (abstractContextAll args)
  | e => e

def abstractContextAll : List Expr → List Expr
  | [] => []
  | e :: es => abstractContext e :: abstractContextAll es

end

/-- The parameter of an expression: the one it already has, or a new one. -/
def parameterFor (base : String) (root : Expr) (binding : Binding) (x : Extraction) :
    Expr × Extraction :=
  match x.known.lookup root with
  | some name => (.parameter name, x)
  | none =>
    let name := parameterName base x.store
    (.parameter name, ⟨x.store.add name binding, x.known ++ [(root, name)]⟩)

def accessorBase (root : Expr) : String :=
  "ef_filter__" ++
    match root.strip with
    | .member _ m => m.name
    | .staticMember m => m.name
    | _ => "p"

def accessorBinding (root : Expr) : Binding :=
  .accessor (.lambda ["context"] (abstractContext root))

def fault (x : Extractor) (root : Expr) (cause : EvalError) : Error :=
  .parameterization (if x.showSensitive then .shown root cause else .concealed)

/-- What takes the place of an expression that moves. -/
def place (x : Extractor) (inLambda literal : Bool) (root : Expr) (captured : Bool) :
    ExtractM Expr := fun s =>
  if x.contextAccessors && root.usesContext then
    let (e, s) := parameterFor (accessorBase root) root (accessorBinding root) s
    (.ok e, s)
  else if !literal && x.parameterize && (captured || !inLambda) then
    match s.known.lookup root with
    | some name => (.ok (.parameter name), s)
    | none =>
      match x.interpreter.evaluate root with
      | .error cause => (.error (x.fault root cause), s)
      | .ok v =>
        let (e, s) := parameterFor ((baseName? root).getD "p") root (.value v) s
        (.ok e, s)
  else if root.isConstant then (.ok root, s)
  else
    match x.interpreter.evaluate root with
    | .error cause => (.error (x.fault root cause), s)
    | .ok v => (.ok (.constant v), s)

/-- A subexpression after its visit: replaced if it moves, otherwise as it is. -/
def placed (x : Extractor) (inLambda literal : Bool) (part : Expr × Mobility) : ExtractM Expr :=
  match part.2 with
  | .moves captured => x.place inLambda literal part.1 captured
  | .stays => pure part.1

def placedAll (x : Extractor) (inLambda literal : Bool) :
    List (Expr × Mobility) → ExtractM (List Expr)
  | [] => pure []
  | part :: parts => do
    let e ← x.placed inLambda literal part
    let es ← x.placedAll inLambda literal parts
    pure (e :: es)

def captures : Expr → Bool
  | .member .. | .staticMember _ | .context => true
  | .constant v => v.isRecord
  | _ => false

def needsLiterals : Expr → Bool
  | .call _ m _ => m.constArgs
  | .staticCall m _ => m.constArgs
  | _ => false

/-- A node moves with all its subexpressions; if it stays, those of them that move are
replaced. -/
def settle (x : Extractor) (inLambda : Bool) (node : Expr) (parts : List (Expr × Mobility)) :
    ExtractM (Expr × Mobility) :=
  let literal := needsLiterals node
  if x.policy.allows node && !literal && parts.all (·.2.isMoving) then
    pure (node.withChildren (parts.map (·.1)),
      .moves (captures node || parts.any (·.2.isCaptured)))
  else do
    let es ← x.placedAll inLambda literal parts
    pure (node.withChildren es, .stays)

mutual

def visit (x : Extractor) (inLambda : Bool) : Expr → ExtractM (Expr × Mobility)
  | .lambda ps b => do
    let part ← x.visit true b
    let b ← x.placed true false part
    pure (.lambda ps b, .stays)
  | .member t m => do
    let t' ← x.visit inLambda t
    x.settle inLambda (.member t m) [t']
  | .call t m args => do
    let t' ← x.visit inLambda t
    let args' ← x.visitAll inLambda args
    x.settle inLambda (.call t m args) (t' :: args')
  | .staticCall m args => do
    let args' ← x.visitAll inLambda args
    x.settle inLambda (.staticCall m args) args'
  | .unary op e => do
    let e' ← x.visit inLambda e
    x.settle inLambda (.unary op e) [e']
  | .binary op l r => do
    let l' ← x.visit inLambda l
    let r' ← x.visit inLambda r
    x.settle inLambda (.binary op l r) [l', r']
  | .conditional t a b => do
    let t' ← x.visit inLambda t
    let a' ← x.visit inLambda a
    let b' ← x.visit inLambda b
    x.settle inLambda (.conditional t a b) [t', a', b']
  | .invoke c args => do
    let c' ← x.visit inLambda c
    let args' ← x.visitAll inLambda args
    x.settle inLambda (.invoke c args) (c' :: args')
  | e => x.settle inLambda e []

def visitAll (x : Extractor) (inLambda : Bool) : List Expr → ExtractM (List (Expr × Mobility))
  | [] => pure []
  | e :: es => do
    let part ← x.visit inLambda e
    let parts ← x.visitAll inLambda es
    pure (part :: parts)

end

def extractRoot (x : Extractor) (e : Expr) : ExtractM Expr := do
  let part ← x.visit false e
  x.placed false false part

/-- The shape of an expression, and the store with its parameters. -/
def extract (x : Extractor) (e : Expr) (store : ParameterStore) :
    Except Error Expr × ParameterStore :=
  let (result, s) := (x.extractRoot e).run ⟨store, []⟩
  (result, s.store)

end Extractor

end QueryTree
