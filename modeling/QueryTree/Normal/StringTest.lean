import QueryTree.Expr.Basic

/-! Tests for the start or the end of a string, guarded so that null operands make them false. -/

namespace QueryTree.Normal

def isStringTest (m : Method) : Bool :=
  m.isFormOf Method.stringStartsWith.signature || m.isFormOf Method.stringEndsWith.signature

def isEmptyString : Expr → Bool
  | .constant (.string s) => s.isEmpty
  | _ => false

/-- The test proper, under the guard that both operands are present. An argument that is not a
constant may turn out empty, and then every string passes. -/
def testTail (negated : Bool) (call argument : Expr) : Expr :=
  match negated, argument.isConstant with
  | false, true => call
  | false, false => .or call (.eq argument (.constant (.string "")))
  | true, true => .not call
  | true, false => .and (.not call) (.ne argument (.constant (.string "")))

/-- A string test, or its negation, that is false if an operand is null. Every string passes the
test with the literal empty string, whatever the subject. -/
def guardedTest (negated : Bool) (subject : Expr) (m : Method) (argument : Expr) : Expr :=
  if isEmptyString argument then .constant (.bool !negated)
  else
    .and (.and (.ne subject .null) (.ne argument .null))
      (testTail negated (.call subject m [argument]) argument)

mutual

def stringTests : Expr → Expr
  | .unary .not (.call s m [a]) =>
    if isStringTest m then guardedTest true (stringTests s) m (stringTests a)
    else .not (.call (stringTests s) m [stringTests a])
  | .call s m [a] =>
    if isStringTest m then guardedTest false (stringTests s) m (stringTests a)
    else .call (stringTests s) m [stringTests a]
  | .call t m args => .call (stringTests t) m (stringTestsAll args)
  | .member t m => .member (stringTests t) m
  | .staticCall m args => .staticCall m (stringTestsAll args)
  | .unary op e => .unary op (stringTests e)
  | .binary op l r => .binary op (stringTests l) (stringTests r)
  | .lambda ps b => .lambda ps (stringTests b)
  | .conditional t a b => .conditional (stringTests t) (stringTests a) (stringTests b)
  | .invoke c args => .invoke (stringTests c) (stringTestsAll args)
  | e => e

def stringTestsAll : List Expr → List Expr
  | [] => []
  | e :: es => stringTests e :: stringTestsAll es

end

end QueryTree.Normal
