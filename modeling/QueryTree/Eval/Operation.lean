import QueryTree.Eval.Error
import QueryTree.Number.Binary
import QueryTree.Number.Checked

/-! Operators on values: equality, order and arithmetic. An integer meets a float as the nearest
double. -/

namespace QueryTree.Value

open Number (Double)

/-- Two numbers of which at least one is a float, as floats. -/
def floatPair? : Value → Value → Option (Double × Double)
  | int x, float y => some (.ofInt64 x, y)
  | float x, int y => some (x, .ofInt64 y)
  | float x, float y => some (x, y)
  | _, _ => none

/-- Floats are equal as numbers; all else is equal structurally. -/
def equals (a b : Value) : Bool :=
  match floatPair? a b with
  | some (x, y) => x.sameNumber y
  | none => decide (a = b)

/-- The order of two values of one ordered kind, or of two numbers. -/
def compare? : Value → Value → Option Ordering
  | int x, int y => some (compare x.toInt y.toInt)
  | string x, string y => some (compare x y)
  | instant x, instant y => some (x.compare y)
  | bool x, bool y => some (compare x y)
  | a, b => (floatPair? a b).bind fun (x, y) => x.compare? y

def orderHolds : BinaryOp → Ordering → Bool
  | .gt, o => o == .gt
  | .ge, o => o != .lt
  | .lt, o => o == .lt
  | _, o => o != .gt

def integerArithmetic (op : BinaryOp) (x y : Int64) : Except EvalError Value :=
  let result :=
    match op with
    | .add => Number.add? x y
    | .sub => Number.sub? x y
    | .mul => Number.mul? x y
    | .div => Number.div? x y
    | .mod => Number.mod? x y
    | _ => none
  if (op = .div ∨ op = .mod) ∧ y = 0 then .error .divisionByZero
  else
    match result with
    | some n => .ok (int n)
    | none => .error (.integerOverflow op)

def floatArithmetic (op : BinaryOp) (x y : Double) : Double :=
  match op with
  | .add => .lift (· + ·) x y
  | .sub => .lift (· - ·) x y
  | .mul => .lift (· * ·) x y
  | .div => .lift (· / ·) x y
  | _ => x.remainder y

/-- Arithmetic yields null if an operand is null, and joins two strings for `+`. -/
def arithmetic (op : BinaryOp) : Value → Value → Except EvalError Value
  | null, _ => .ok null
  | _, null => .ok null
  | int x, int y => integerArithmetic op x y
  | a, b =>
    match op, a, b with
    | .add, string x, string y => .ok (string (x ++ y))
    | _, _, _ =>
      match floatPair? a b with
      | some (x, y) => .ok (float (floatArithmetic op x y))
      | none => .error (.binaryOperands op a.kind b.kind)

def logicalNot : Value → Except EvalError Value
  | bool b => .ok (bool (!b))
  | null => .ok null
  | v => .error (.unaryOperand .not v.kind)

def negated : Value → Except EvalError Value
  | int i =>
    match Number.neg? i with
    | some n => .ok (int n)
    | none => .error .negationOverflow
  | float x => .ok (float x.neg)
  | null => .ok null
  | v => .error (.unaryOperand .negate v.kind)

end QueryTree.Value
