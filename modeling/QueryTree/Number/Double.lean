/-! Binary floating-point numbers of 64 bits. They are told apart by their bits, so the two zeros
differ, and so do two values that are not numbers and have different signs. -/

namespace QueryTree.Number

structure Double where
  bits : UInt64
  deriving DecidableEq, Repr

namespace Double

def ofFloat (x : Float) : Double := ⟨x.toBits⟩

def toFloat (x : Double) : Float := Float.ofBits x.bits

def ofInt64 (i : Int64) : Double := ofFloat i.toFloat

def signBit : UInt64 := 0x8000000000000000

/-- The bits of positive infinity; greater ones, up to the sign, are not numbers. -/
def infinityBits : UInt64 := 0x7ff0000000000000

/-- Negation flips the sign of every value, also of one that is not a number. -/
def neg (x : Double) : Double := ⟨x.bits ^^^ signBit⟩

def abs (x : Double) : Double := ⟨x.bits &&& ~~~signBit⟩

def isNaN (x : Double) : Bool := decide (infinityBits < x.abs.bits)

/-- What an operation yields that has no result, such as the difference of two infinities. -/
def invalid : Double := ⟨0xfff8000000000000⟩

/-- Carries an operation over from numbers. An operand that is not a number is the result, the left
one before the right one. -/
def lift (op : Float → Float → Float) (x y : Double) : Double :=
  if x.isNaN then x
  else if y.isNaN then y
  else
    let result := op x.toFloat y.toFloat
    if result.isNaN then invalid else ofFloat result

/-- Equality of numbers: the two zeros are equal, and a value that is not a number equals none. -/
def sameNumber (x y : Double) : Bool := x.toFloat == y.toFloat

/-- The order of two numbers; a value that is not a number has none. -/
def compare? (x y : Double) : Option Ordering :=
  if x.toFloat < y.toFloat then some .lt
  else if x.sameNumber y then some .eq
  else if y.toFloat < x.toFloat then some .gt
  else none

end Double

end QueryTree.Number
