import QueryTree.Number.Double

/-! Binary floating-point numbers as exact multiples of powers of two. -/

namespace QueryTree.Number

/-- The parts of a double; a finite one is `± mantissa · 2 ^ exponent`. -/
inductive Binary where
  | nan
  | infinite (negative : Bool)
  | finite (negative : Bool) (mantissa : Nat) (exponent : Int)
  deriving DecidableEq, Repr

def minExponent : Int := -1074

/-- One more than the largest mantissa, and the least mantissa of a normal number. -/
def mantissaBound : Nat := Nat.pow 2 53
def normalMantissa : Nat := Nat.pow 2 52

def Binary.ofDouble (x : Double) : Binary :=
  let bits := x.bits.toNat
  let negative := decide (Nat.pow 2 63 ≤ bits)
  let biased := bits / normalMantissa % 2048
  let fraction := bits % normalMantissa
  if biased = 2047 then if fraction = 0 then .infinite negative else .nan
  else if biased = 0 then .finite negative fraction minExponent
  else .finite negative (normalMantissa + fraction) (biased - 1075)

/-- The double `± n · 2 ^ q`, for a product that a double can hold exactly. -/
def Double.ofScaled (negative : Bool) (n : Nat) (q : Int) : Double :=
  let sign := if negative then Nat.pow 2 63 else 0
  if n = 0 then ⟨UInt64.ofNat sign⟩
  else
    let shift := min (52 - n.log2) (q - minExponent).toNat
    let mantissa := n * Nat.pow 2 shift
    let magnitude :=
      if mantissa < normalMantissa then mantissa
      else (q - shift + 1075).toNat * normalMantissa + (mantissa - normalMantissa)
    ⟨UInt64.ofNat (sign + magnitude)⟩

/-- The remainder of a division truncated toward zero, computed without rounding; it has the sign
of the dividend. An operand that is not a number is the result, as for other operations. -/
def Double.remainder (x y : Double) : Double :=
  match Binary.ofDouble x, Binary.ofDouble y with
  | .nan, _ => x
  | _, .nan => y
  | .finite nx mx qx, .finite _ my qy =>
    if my = 0 then invalid
    else
      let q := min qx qy
      ofScaled nx ((mx * Nat.pow 2 (qx - q).toNat) % (my * Nat.pow 2 (qy - q).toNat)) q
  | .finite .., .infinite _ => x
  | .infinite _, _ => invalid

end QueryTree.Number
