/-! Universally unique identifiers. -/

namespace QueryTree

structure Uuid where
  bits : BitVec 128
  deriving DecidableEq, Hashable, Repr

namespace Uuid

def empty : Uuid := ⟨0⟩

/-- Groups of hexadecimal digits, joined by dashes. -/
def grouped : List Nat → List Char → List (List Char)
  | [], _ => []
  | n :: ns, cs => cs.take n :: grouped ns (cs.drop n)

/-- Thirty-two lowercase hexadecimal digits in groups of 8, 4, 4, 4 and 12. -/
def text (u : Uuid) : String :=
  let digits := Nat.toDigits 16 u.bits.toNat
  let all := List.replicate (32 - digits.length) '0' ++ digits
  "-".intercalate ((grouped [8, 4, 4, 4, 12] all).map String.ofList)

def hexDigit? (c : Char) : Option Nat :=
  if '0' ≤ c ∧ c ≤ '9' then some (c.toNat - '0'.toNat)
  else if 'a' ≤ c ∧ c ≤ 'f' then some (c.toNat - 'a'.toNat + 10)
  else if 'A' ≤ c ∧ c ≤ 'F' then some (c.toNat - 'A'.toNat + 10)
  else none

/-- Reads thirty-two hexadecimal digits; dashes are skipped. -/
def parse? (s : String) : Option Uuid := do
  let digits ← (s.toList.filter (· ≠ '-')).mapM hexDigit?
  if digits.length = 32 then some ⟨BitVec.ofNat 128 (digits.foldl (fun n d => 16 * n + d) 0)⟩
  else none

end Uuid

end QueryTree
