import QueryTree.Expr.Basic

/-! Why an expression has no value. -/

namespace QueryTree

inductive EvalError where
  | unboundVariable (name : String)
  | parameterWithoutValue (name : String)
  | lambdaValue
  | querySource
  | noContext
  | nullReference (member : Member)
  | unknownMember (member : Member)
  | unknownMethod (method : Method)
  | notInlineLambda
  | conditionalTest (kind : Kind)
  | logicalOperand (kind : Kind)
  | incomparable (left right : Kind)
  | unaryOperand (op : UnaryOp) (kind : Kind)
  | binaryOperands (op : BinaryOp) (left right : Kind)
  | integerOverflow (op : BinaryOp)
  | negationOverflow
  | divisionByZero
  | nullReceiver (function : String)
  | notString (function : String) (kind : Kind)
  | compareArguments
  | compareMode
  | absOverflow
  | absOperand
  | extremumArguments
  | extremumOperands
  /-- The failure of a client function, in its own words. -/
  | clientFailure (text : String)
  deriving DecidableEq, Repr

namespace EvalError

def unaryName : UnaryOp → String
  | .not => "Not"
  | .negate => "Negate"
  | .convert type => "Convert(" ++ type ++ ")"
  | .quote => "Quote"

def message : EvalError → String
  | unboundVariable name => "unbound variable '" ++ name ++ "'"
  | parameterWithoutValue name => "parameter '" ++ name ++ "' has no value during translation"
  | lambdaValue => "a lambda is not a value"
  | querySource => "query sources cannot be evaluated on the client"
  | noContext => "no context instance available"
  | nullReference m => "null reference reading '" ++ m.text ++ "'"
  | unknownMember m => "no client implementation for member '" ++ m.text ++ "'"
  | unknownMethod m => "no client implementation for method '" ++ m.text ++ "'"
  | notInlineLambda => "invoked value is not an inline lambda"
  | conditionalTest k => "conditional test must be bool, got " ++ k.label
  | logicalOperand k => "logical operand must be bool, got " ++ k.label
  | incomparable l r => "cannot compare " ++ l.label ++ " with " ++ r.label
  | unaryOperand op k => "cannot apply " ++ unaryName op ++ " to " ++ k.label
  | binaryOperands op l r =>
    "cannot apply '" ++ op.symbol ++ "' to " ++ l.label ++ " and " ++ r.label
  | integerOverflow op => "integer overflow in '" ++ op.symbol ++ "'"
  | negationOverflow => "integer overflow in negation"
  | divisionByZero => "division by zero"
  | nullReceiver function => "null receiver for " ++ function
  | notString function k => function ++ " expects a string, got " ++ k.label
  | compareArguments => "String.Compare expects 3 arguments"
  | compareMode => "String.Compare expects a StringComparison"
  | absOverflow => "Math.Abs overflow"
  | absOperand => "Math.Abs expects a number"
  | extremumArguments => "Math.Max/Min expects 2 arguments"
  | extremumOperands => "Math.Max/Min expects numbers"
  | clientFailure text => text

end EvalError

end QueryTree
