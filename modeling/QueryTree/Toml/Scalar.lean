import QueryTree.Toml.Basic

/-! Numbers, booleans and dates of TOML. Each is one word without blanks, except that a blank may
stand between a date and a time. -/

namespace QueryTree.Toml

def isOctal (c : Char) : Bool := '0' ≤ c && c ≤ '7'

def isBinary (c : Char) : Bool := c == '0' || c == '1'

def isHex (c : Char) : Bool :=
  c.isDigit || ('a' ≤ c && c ≤ 'f') || ('A' ≤ c && c ≤ 'F')

def digitValue (c : Char) : Nat :=
  if c.isDigit then c.toNat - '0'.toNat
  else if 'a' ≤ c then c.toNat - 'a'.toNat + 10
  else c.toNat - 'A'.toNat + 10

def ofDigits (base : Nat) (cs : List Char) : Nat :=
  cs.foldl (fun n c => n * base + digitValue c) 0

/-- The digits of a group, in which single underscores stand between digits. -/
def group? (digit : Char → Bool) : List Char → Option (List Char)
  | [] => none
  | [c] => if digit c then some [c] else none
  | c :: '_' :: rest => if digit c then (group? digit rest).map (c :: ·) else none
  | c :: rest => if digit c then (group? digit rest).map (c :: ·) else none

def number? (base : Nat) (digit : Char → Bool) (cs : List Char) : Option Nat :=
  (group? digit cs).map (ofDigits base)

/-- Digits of a whole number in base ten, which has no needless zero in front. -/
def whole? (cs : List Char) : Option (List Char) := do
  let digits ← group? Char.isDigit cs
  if digits.head? == some '0' && 1 < digits.length then none else some digits

def signed : List Char → Bool × List Char
  | '+' :: rest => (false, rest)
  | '-' :: rest => (true, rest)
  | cs => (false, cs)

def withSign (negative : Bool) (n : Nat) : Int := if negative then -(n : Int) else n

def integer? : List Char → Option Int
  | '0' :: 'x' :: rest => (number? 16 isHex rest).map Int.ofNat
  | '0' :: 'o' :: rest => (number? 8 isOctal rest).map Int.ofNat
  | '0' :: 'b' :: rest => (number? 2 isBinary rest).map Int.ofNat
  | cs =>
    let (negative, rest) := signed cs
    (whole? rest).map fun digits => withSign negative (ofDigits 10 digits)

/-- The parts before and after the first character of a kind, if there is one. -/
def cut? (p : Char → Bool) (cs : List Char) : Option (List Char × List Char) :=
  match cs.dropWhile (!p ·) with
  | [] => none
  | _ :: after => some (cs.takeWhile (!p ·), after)

def exponent? (cs : List Char) : Option Int :=
  let (negative, rest) := signed cs
  (number? 10 Char.isDigit rest).map (withSign negative)

/-- A finite number without its sign: digits and power of ten. -/
def decimal? (cs : List Char) : Option (List Char × Int) :=
  let scaled := cut? (fun c => c == 'e' || c == 'E') cs
  let front := (scaled.map (·.1)).getD cs
  match cut? (· == '.') front with
  | some (before, after) => do
    let digits ← whole? before
    let places ← group? Char.isDigit after
    let e ← (scaled.map (exponent? ·.2)).getD (some 0)
    some (digits ++ places, e - places.length)
  | none => do
    let digits ← whole? front
    let (_, written) ← scaled
    let e ← exponent? written
    some (digits, e)

def real? (cs : List Char) : Option Real :=
  let (negative, rest) := signed cs
  if rest = "inf".toList then some (.infinite negative)
  else if rest = "nan".toList then some .nan
  else (decimal? rest).map fun (digits, e) => .finite (withSign negative (ofDigits 10 digits)) e

def two? (a b : Char) : Option Nat :=
  if a.isDigit && b.isDigit then some (ofDigits 10 [a, b]) else none

def daysInMonth (year month : Nat) : Nat :=
  if month = 2 then
    if year % 4 = 0 && (year % 100 != 0 || year % 400 = 0) then 29 else 28
  else if month = 4 || month = 6 || month = 9 || month = 11 then 30
  else 31

/-- Whether the text starts with a date, and what follows it. -/
def date? : List Char → Option (List Char)
  | a :: b :: c :: d :: '-' :: e :: f :: '-' :: g :: h :: rest => do
    let century ← two? a b
    let year ← two? c d
    let month ← two? e f
    let day ← two? g h
    if 1 ≤ month && month ≤ 12 && 1 ≤ day && day ≤ daysInMonth (century * 100 + year) month
    then some rest else none
  | _ => none

/-- Seconds after their colon, with a fraction perhaps, and what follows them. Second 60 is a leap
second. -/
def seconds? : List Char → Option (List Char)
  | a :: b :: rest => do
    let second ← two? a b
    if second ≤ 60 then
      match rest with
      | '.' :: more =>
        if (more.takeWhile Char.isDigit).isEmpty then none else some (more.dropWhile Char.isDigit)
      | _ => some rest
    else none
  | _ => none

/-- Whether the text starts with a time of day, and what follows it. Seconds may be left out. -/
def time? : List Char → Option (List Char)
  | a :: b :: ':' :: c :: d :: rest => do
    let hour ← two? a b
    let minute ← two? c d
    if hour ≤ 23 && minute ≤ 59 then
      match rest with
      | ':' :: more => seconds? more
      | _ => some rest
    else none
  | _ => none

def isOffset : List Char → Bool
  | ['Z'] | ['z'] => true
  | [sign, a, b, ':', c, d] =>
    (sign == '+' || sign == '-') &&
      match two? a b, two? c d with
      | some hour, some minute => hour ≤ 23 && minute ≤ 59
      | _, _ => false
  | _ => false

/-- A date, a time, or both and then perhaps an offset. -/
def isDatetime (cs : List Char) : Bool :=
  match date? cs with
  | none => time? cs == some []
  | some [] => true
  | some (c :: rest) =>
    (c == 'T' || c == 't' || c == ' ') &&
      match time? rest with
      | none => false
      | some after => after.isEmpty || isOffset after

def scalar? (cs : List Char) : Option Item :=
  if cs = "true".toList then some (.bool true)
  else if cs = "false".toList then some (.bool false)
  else
    match integer? cs with
    | some i => some (.integer i)
    | none =>
      match real? cs with
      | some x => some (.real x)
      | none => if isDatetime cs then some (.datetime (String.ofList cs)) else none

def isWordEnd (c : Char) : Bool := " \t\r\n,]\x7d#".toList.contains c

/-- A word and what follows it. The blank between a date and a time belongs to the word. -/
def word (cs : List Char) : List Char × List Char :=
  let first := cs.takeWhile (!isWordEnd ·)
  match date? first, cs.dropWhile (!isWordEnd ·) with
  | some [], ' ' :: c :: rest =>
    if c.isDigit then
      (first ++ ' ' :: (c :: rest).takeWhile (!isWordEnd ·), (c :: rest).dropWhile (!isWordEnd ·))
    else (first, ' ' :: c :: rest)
  | _, rest => (first, rest)

end QueryTree.Toml
