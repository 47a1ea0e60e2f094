import QueryTree.Number.Binary

/-! The decimal text of a float: the fewest digits that read back as the same float, and of those
the nearest. -/

namespace QueryTree.Number

/-- The decimal `0.d₁d₂… · 10 ^ point`. -/
structure Decimal where
  digits : List Char
  point : Int
  deriving DecidableEq, Repr

/-- The reals that round to `m · 2 ^ q`, in units of a quarter of `2 ^ q`: from `low` to `high`,
the ends included iff `m` is even. -/
structure Rounding where
  low : Nat
  mid : Nat
  high : Nat
  closed : Bool

def Rounding.ofMantissa (m : Nat) (q : Int) : Rounding where
  low := if m = normalMantissa ∧ minExponent < q then 4 * m - 1 else 4 * m - 2
  mid := 4 * m
  high := 4 * m + 2
  closed := m % 2 = 0

/-- The factors that turn quarters of `2 ^ q` and units of `10 ^ k` into whole numbers of one
common unit. -/
def scales (q k : Int) : Nat × Nat :=
  (Nat.pow 2 (q - 2).toNat * Nat.pow 10 (-k).toNat,
    Nat.pow 10 k.toNat * Nat.pow 2 (2 - q).toNat)

/-- Whether `d · 10 ^ k` rounds to the float. -/
def Rounding.accepts (r : Rounding) (q k : Int) (d : Nat) : Bool :=
  let (binary, decimal) := scales q k
  let value := d * decimal
  if r.closed then decide (r.low * binary ≤ value ∧ value ≤ r.high * binary)
  else decide (r.low * binary < value ∧ value < r.high * binary)

/-- The nearer accepted neighbour on the grid of multiples of `10 ^ k`; of two equally near the
upper one. -/
def Rounding.onGrid (r : Rounding) (q k : Int) : Option Nat :=
  let (binary, decimal) := scales q k
  let value := r.mid * binary
  let down := value / decimal
  let upNearer := decide (decimal ≤ 2 * (value % decimal))
  match r.accepts q k down, r.accepts q k (down + 1) with
  | true, true => some (if upNearer then down + 1 else down)
  | true, false => some down
  | false, true => some (down + 1)
  | false, false => none

/-- The number of decimal places before the point of `m · 2 ^ q`: the least `k` with
`m · 2 ^ q < 10 ^ k`, looked for upward from `start`. -/
def placesFrom (m : Nat) (q : Int) : Nat → Int → Int
  | 0, k => k
  | fuel + 1, k =>
    let (binary, decimal) := scales q k
    if 4 * m * binary < decimal then k else placesFrom m q fuel (k + 1)

/-- A start a little below the answer: `2 ^ e ≤ m · 2 ^ q` gives at least `⌊0.301 e⌋` places. -/
def places (m : Nat) (q : Int) : Int :=
  placesFrom m q 8 ((301 * (m.log2 + q)).fdiv 1000 - 2)

/-- The first of the grids with `n`, `n + 1`, … digits that holds an accepted point. -/
def Rounding.search (r : Rounding) (q point : Int) : Nat → Nat → Decimal
  | 0, _ => ⟨[], point⟩
  | fuel + 1, n =>
    match r.onGrid q (point - n) with
    | none => r.search q point fuel (n + 1)
    | some d =>
      let digits := Nat.toDigits 10 d
      ⟨(digits.reverse.dropWhile (· = '0')).reverse, point - n + digits.length⟩

/-- The shortest decimal of `m · 2 ^ q`, for `0 < m`; seventeen digits always suffice. -/
def shortest (m : Nat) (q : Int) : Decimal :=
  (Rounding.ofMantissa m q).search q (places m q) 18 1

/-- How a decimal is written: positionally if its point lies between `least` and `greatest`,
otherwise with an exponent. -/
structure FloatFormat where
  least : Int
  greatest : Int
  exponentMark : String
  nan : String
  infinity : String

def zeros (n : Nat) : List Char := List.replicate n '0'

/-- Positional text with at least one digit on each side of the point. -/
def Decimal.positional (d : Decimal) : String :=
  if d.point ≤ 0 then String.ofList ('0' :: '.' :: (zeros (-d.point).toNat ++ d.digits))
  else
    let whole := d.point.toNat
    let padded := d.digits ++ zeros (whole - d.digits.length)
    let fraction := padded.drop whole
    String.ofList (padded.take whole ++ '.' :: (if fraction.isEmpty then ['0'] else fraction))

def Decimal.scientific (mark : String) (d : Decimal) : String :=
  let fraction := d.digits.drop 1
  String.ofList (d.digits.take 1) ++
    (if fraction.isEmpty then "" else "." ++ String.ofList fraction)
    ++ mark ++ toString (d.point - 1)

def FloatFormat.decimalText (f : FloatFormat) (d : Decimal) : String :=
  if f.least ≤ d.point ∧ d.point ≤ f.greatest then d.positional else d.scientific f.exponentMark

def FloatFormat.text (f : FloatFormat) (x : Double) : String :=
  let sign (negative : Bool) := if negative then "-" else ""
  match Binary.ofDouble x with
  | .nan => f.nan
  | .infinite negative => sign negative ++ f.infinity
  | .finite negative 0 _ => sign negative ++ "0.0"
  | .finite negative m q => sign negative ++ f.decimalText (shortest m q)

end QueryTree.Number
