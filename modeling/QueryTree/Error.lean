import QueryTree.Eval.Error
import QueryTree.Expr.Text

/-! Why a query cannot be compiled. Each cause is a constructor; the wording is `Error.message`. -/

namespace QueryTree

inductive ArgumentFault where
  | wrongCount (expected found : Nat)
  | tooMany (found : Nat)
  | notLambda (arity : Nat) (found : Expr)
  | notNavigation (found : Expr)
  | groupSelectors
  | collectionSelectors
  | noOrdering
  | noInclude
  | noTargetType
  | tagNotConstant (found : Expr)
  | pathNotConstant (found : Expr)
  | emptyNavigation
  | described (text : String)

def ArgumentFault.message : ArgumentFault → String
  | wrongCount expected found =>
    "expected " ++ toString expected ++ " argument(s) after the source, found " ++ toString found
  | tooMany found => "expected at most 1 argument after the source, found " ++ toString found
  | notLambda arity found =>
    "expected a " ++ toString arity ++ "-parameter lambda, found " ++ found.text
  | notNavigation found => "expected a navigation property chain, found " ++ found.text
  | groupSelectors => "expected a key selector and an optional element selector"
  | collectionSelectors => "expected a collection selector and an optional result selector"
  | noOrdering => "must directly follow an ordering"
  | noInclude => "must follow an include"
  | noTargetType => "missing target type"
  | tagNotConstant found => "tag must be a constant string, found " ++ found.text
  | pathNotConstant found => "include path must be a constant string, found " ++ found.text
  | emptyNavigation => "include path has an empty navigation name"
  | described text => text

/-- Why a parameter has no value. The expression and the cause are shown only on request, because
they may hold private data. -/
inductive ParameterFault where
  | concealed
  | shown (root : Expr) (cause : EvalError)
  | described (text : String)

inductive InternalFault where
  | notInvertible (op : BinaryOp)
  | unknownSource (source : SourceId)
  | foreignSource (model : ModelId)
  | described (text : String)

def InternalFault.message : InternalFault → String
  | notInvertible op => "cannot invert binary operator '" ++ op.symbol ++ "'"
  | unknownSource s => "unknown query source #" ++ toString s
  | foreignSource m => "model #" ++ toString m ++ " references a source outside its arena"
  | described text => text

inductive Error where
  /-- A call in the place of a sequence that no operator is registered for. -/
  | unrecognizedOperator (method : String)
  | invalidArguments (operator : String) (fault : ArgumentFault)
  /-- An include path that does not name navigations of the entity type. -/
  | includeNotBindable (path : String)
  | parameterization (fault : ParameterFault)
  | evaluation (cause : EvalError)
  | unknownSubquery (model : ModelId)
  | internal (fault : InternalFault)
  | cancelled
  | settings (text : String)
  /-- Invocations or subqueries nest deeper than the caller allowed. -/
  | limitExceeded

def EvalError.fullMessage (e : EvalError) : String := "Evaluation error: " ++ e.message

def ParameterFault.message : ParameterFault → String
  | concealed =>
    "An exception was thrown while attempting to evaluate a query parameter expression. " ++
    "Enable sensitive data logging to see the expression."
  | shown root cause =>
    "An exception was thrown while attempting to evaluate the query parameter expression '" ++
    root.text ++ "': " ++ cause.fullMessage
  | described text => text

namespace Error

def message : Error → String
  | unrecognizedOperator method =>
    "Could not translate method call '" ++ method ++ "': no query operator is registered for it"
  | invalidArguments operator fault =>
    "Invalid arguments for query operator '" ++ operator ++ "': " ++ fault.message
  | includeNotBindable path =>
    "Include path '" ++ path ++ "' does not bind to a chain of navigations"
  | parameterization fault => "Failed to evaluate query parameter: " ++ fault.message
  | evaluation cause => cause.fullMessage
  | unknownSubquery m => "Unknown subquery model #" ++ toString m
  | internal fault => "Internal consistency error: " ++ fault.message
  | cancelled => "Operation was cancelled"
  | settings text => "Configuration error: " ++ text
  | limitExceeded => "Nesting limit exceeded"

def label : Error → String
  | unrecognizedOperator _ => "UnrecognizedOperator"
  | invalidArguments .. => "InvalidOperatorArguments"
  | includeNotBindable _ => "IncludeNotBindable"
  | parameterization _ => "Parameterization"
  | evaluation _ => "Evaluation"
  | unknownSubquery _ => "UnknownSubquery"
  | internal _ => "InternalConsistency"
  | cancelled => "Cancelled"
  | settings _ => "Config"
  | limitExceeded => "LimitExceeded"

/-- An error reported from outside, by its kind and in the words of its reporter. -/
def ofReport? : String → List String → Option Error
  | "UnrecognizedOperator", [method] => some (unrecognizedOperator method)
  | "InvalidOperatorArguments", [operator, text] =>
    some (invalidArguments operator (.described text))
  | "IncludeNotBindable", [path] => some (includeNotBindable path)
  | "Parameterization", [text] => some (parameterization (.described text))
  | "Evaluation", [text] => some (evaluation (.clientFailure text))
  | "UnknownSubquery", [number] => number.toNat?.map unknownSubquery
  | "InternalConsistency", [text] => some (internal (.described text))
  | "Cancelled", [] => some cancelled
  | "Config", [text] => some (settings text)
  | _, _ => none

def isFatal : Error → Bool
  | internal _ => true
  | _ => false

def isQueryError : Error → Bool
  | unrecognizedOperator _ | invalidArguments .. | includeNotBindable _ | parameterization _ =>
    true
  | _ => false

end Error

end QueryTree
