import QueryTree.Association

/-! TOML documents as trees of tables, and the rules on which tables may be extended. -/

namespace QueryTree.Toml

/-- How a table came to be, which decides what may be added to it later. -/
inductive TableForm where
  /-- Part of the path of a header, without a header of its own yet. -/
  | implied
  | header
  /-- Part of a dotted key. -/
  | dotted
  | inline
  deriving DecidableEq, Repr

/-- A number with a fraction or an exponent, as written. -/
inductive Real where
  | finite (mantissa : Int) (exponent : Int)
  | infinite (negative : Bool)
  | nan
  deriving DecidableEq, Repr

inductive Item where
  | string (s : String)
  | integer (i : Int)
  | real (x : Real)
  | bool (b : Bool)
  | datetime (text : String)
  /-- An array written with headers can be extended by further headers. -/
  | array (headed : Bool) (items : List Item)
  | table (form : TableForm) (entries : List (String × Item))
  deriving Repr

abbrev Entries := List (String × Item)

/-- Changes the table at the end of a path and creates missing tables on the way. A path leads
through the last table of an array that headers wrote. A dotted key does not reach into a table
under a header of its own, and no path reaches into an inline table. -/
def Entries.within (dotted : Bool) (change : TableForm → Entries → Option Entries) :
    List String → TableForm → Entries → Option Entries
  | [], form, es => change form es
  | key :: keys, _, es =>
    match es.lookup key with
    | none => do
      let form := if dotted then .dotted else .implied
      let inner ← within dotted change keys form []
      some (upsert key (.table form inner) es)
    | some (.table form inner) =>
      if form = .inline || (dotted && form = .header) then none
      else do
        let inner ← within dotted change keys form inner
        some (upsert key (.table form inner) es)
    | some (.array true items) =>
      match items.getLast? with
      | some (.table form inner) => do
        let inner ← within dotted change keys form inner
        some (upsert key (.array true (items.dropLast ++ [.table form inner])) es)
      | _ => none
    | some _ => none

def Entries.add (key : String) (item : Item) (es : Entries) : Option Entries :=
  match es.lookup key with
  | some _ => none
  | none => some (es ++ [(key, item)])

/-- Adds an entry under a dotted key; the table that its front names is one that only dotted keys
write. -/
def Entries.addDotted (front : List String) (key : String) (item : Item) (es : Entries) :
    Option Entries :=
  es.within true
    (fun form es => if !front.isEmpty && form != .dotted then none else es.add key item)
    front .header

/-- Opens the table of a header. Only a table that was merely implied may exist. -/
def Entries.openTable (front : List String) (key : String) (es : Entries) : Option Entries :=
  es.within false
    (fun _ es =>
      match es.lookup key with
      | none => some (es ++ [(key, .table .header [])])
      | some (.table .implied inner) => some (upsert key (.table .header inner) es)
      | some _ => none)
    front .header

def Entries.openArrayTable (front : List String) (key : String) (es : Entries) : Option Entries :=
  es.within false
    (fun _ es =>
      match es.lookup key with
      | none => some (es ++ [(key, .array true [.table .header []])])
      | some (.array true items) =>
        some (upsert key (.array true (items ++ [.table .header []])) es)
      | some _ => none)
    front .header

namespace Real

/-- Whether the nearest double is finite: the number lies below the midpoint between the greatest
double and the next power of two. -/
def inRange : Real → Bool
  | finite mantissa exponent =>
    let digits := (Nat.toDigits 10 mantissa.natAbs).length
    if mantissa = 0 || exponent + digits < 300 then true
    else if 310 < exponent + digits then false
    else
      let bound := Nat.pow 2 1024 - Nat.pow 2 970
      if 0 ≤ exponent then mantissa.natAbs * Nat.pow 10 exponent.toNat < bound
      else mantissa.natAbs < bound * Nat.pow 10 (-exponent).toNat
  | _ => true

end Real

mutual

/-- Whether all numbers in an item can be represented: integers in 128 bits, signed or not. -/
def Item.inRange : Item → Bool
  | .integer i => -(2 ^ 127) ≤ i && i < 2 ^ 128
  | .real x => x.inRange
  | .array _ items => Item.allInRange items
  | .table _ entries => Item.entriesInRange entries
  | _ => true

def Item.allInRange : List Item → Bool
  | [] => true
  | item :: items => item.inRange && Item.allInRange items

def Item.entriesInRange : List (String × Item) → Bool
  | [] => true
  | (_, item) :: entries => item.inRange && Item.entriesInRange entries

end

end QueryTree.Toml
