import QueryTree.Expr.Basic

/-! String comparisons of a foreign front end, brought into the form `String.Compare`. -/

namespace QueryTree.Normal

def compareCall (left right : Expr) (mode : StringComparison) : Expr :=
  .staticCall Method.stringCompare [left, right, .constant mode.toValue]

/-- The flag says whether case is ignored; one that is not a constant is tested when the query
runs. -/
def canonicalComparison (left right flag : Expr) : Expr :=
  match flag with
  | .constant (.bool true) => compareCall left right .ordinalIgnoreCase
  | .constant (.bool false) => compareCall left right .ordinal
  | _ =>
    .conditional flag (compareCall left right .ordinalIgnoreCase) (compareCall left right .ordinal)

/-- A call of the foreign comparison with its three arguments is replaced, any other is kept. -/
def comparisonCall (m : Method) : List Expr → Expr
  | [left, right, flag] =>
    if m.isFormOf Method.compareString.signature then canonicalComparison left right flag
    else .staticCall m [left, right, flag]
  | args => .staticCall m args

mutual

def comparisons : Expr → Expr
  | .member t m => .member (comparisons t) m
  | .call t m args => .call (comparisons t) m (comparisonsAll args)
  | .staticCall m args => comparisonCall m (comparisonsAll args)
  | .unary op e => .unary op (comparisons e)
  | .binary op l r => .binary op (comparisons l) (comparisons r)
  | .lambda ps b => .lambda ps (comparisons b)
  | .conditional t a b => .conditional (comparisons t) (comparisons a) (comparisons b)
  | .invoke c args => .invoke (comparisons c) (comparisonsAll args)
  | e => e

def comparisonsAll : List Expr → List Expr
  | [] => []
  | e :: es => comparisons e :: comparisonsAll es

end

end QueryTree.Normal
