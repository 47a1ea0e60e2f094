/-! Arithmetic on 64-bit integers that has no result where the exact result does not fit. -/

namespace QueryTree.Number

/-- The word with this value, if there is one. -/
def word? (n : Int) : Option Int64 :=
  if -Int.pow 2 63 ≤ n ∧ n < Int.pow 2 63 then some (Int64.ofInt n) else none

def add? (x y : Int64) : Option Int64 := word? (x.toInt + y.toInt)

def sub? (x y : Int64) : Option Int64 := word? (x.toInt - y.toInt)

def mul? (x y : Int64) : Option Int64 := word? (x.toInt * y.toInt)

/-- Division truncates toward zero. -/
def div? (x y : Int64) : Option Int64 := word? (x.toInt.tdiv y.toInt)

/-- The remainder has the sign of the dividend; it has no value where the quotient does not fit. -/
def mod? (x y : Int64) : Option Int64 :=
  (div? x y).bind fun _ => word? (x.toInt.tmod y.toInt)

def neg? (x : Int64) : Option Int64 := word? (-x.toInt)

def abs? (x : Int64) : Option Int64 := word? x.toInt.natAbs

end QueryTree.Number
