import QueryTree.Association
import QueryTree.Eval.Operation
import QueryTree.Text.Blank
import QueryTree.Text.Casing
import QueryTree.Value.Text

/-! Client functions: what methods and members compute, given their receiver and arguments. -/

namespace QueryTree

/-- What a method computes from its receiver, if it has one, and its arguments. -/
abbrev ClientMethod := Option Value → List Value → Except EvalError Value

/-- What a member reads off its receiver, if it has one. -/
abbrev ClientMember := Option Value → Except EvalError Value

inductive Implementation where
  | computed (f : ClientMethod)
  /-- A supply of identifiers, of which every call takes another one. -/
  | fresh (supply : Nat → Uuid)

/-- A call by itself takes the first identifier of a supply. -/
def Implementation.run : Implementation → ClientMethod
  | computed f => f
  | fresh supply => fun _ _ => .ok (.uuid (supply 0))

/-- The implementations known to an interpreter; every name occurs once. -/
structure FunctionTable where
  methods : List (Signature × Implementation)
  members : List (Member × ClientMember)

namespace FunctionTable

def empty : FunctionTable := ⟨[], []⟩

def withMethod (t : FunctionTable) (s : Signature) (f : ClientMethod) : FunctionTable :=
  { t with methods := upsert s (.computed f) t.methods }

def withMember (t : FunctionTable) (m : Member) (f : ClientMember) : FunctionTable :=
  { t with members := upsert m f t.members }

def method? (t : FunctionTable) (s : Signature) : Option ClientMethod :=
  (t.methods.lookup s).map (·.run)

def supply? (t : FunctionTable) (s : Signature) : Option (Nat → Uuid) :=
  match t.methods.lookup s with
  | some (.fresh supply) => some supply
  | _ => none

def member? (t : FunctionTable) (m : Member) : Option ClientMember := t.members.lookup m

end FunctionTable

/-- What a run takes from its surroundings: the current time, and a supply of fresh identifiers. -/
structure Ambient where
  now : Instant
  fresh : Nat → Uuid

namespace Builtin

def expectString (function : String) : Value → Except EvalError String
  | .string s => .ok s
  | v => .error (.notString function v.kind)

/-- The receiver of a string method; an absent one counts as null. -/
def receiver (function : String) (target : Option Value) : Except EvalError String :=
  match target.getD .null with
  | .null => .error (.nullReceiver function)
  | v => expectString function v

def occursIn (part : List Char) : List Char → Bool
  | [] => part.isEmpty
  | c :: cs => part.isPrefixOf (c :: cs) || occursIn part cs

/-- A test of a string against the first argument; without arguments, against the empty string. -/
def stringTest (function : String) (holds : List Char → List Char → Bool) : ClientMethod :=
  fun target args => do
    let s ← receiver function target
    let part ←
      match args with
      | [] => .ok ""
      | a :: _ => expectString function a
    .ok (.bool (holds part.toList s.toList))

def stringMap (function : String) (f : String → String) : ClientMethod :=
  fun target _ => do
    let s ← receiver function target
    .ok (.string (f s))

def length : ClientMember := fun target => do
  let s ← receiver "Length" target
  .ok (.int (Int64.ofNat s.length))

def isNullOrEmpty : ClientMethod := fun _ args =>
  match args with
  | [] | .null :: _ => .ok (.bool true)
  | v :: _ => do
    let s ← expectString "IsNullOrEmpty" v
    .ok (.bool s.isEmpty)

/-- The part of an argument in a concatenation: nothing for null, the bare text of a string. -/
def concatPart : Value → String
  | .null => ""
  | .string s => s
  | v => v.text

def concat : ClientMethod := fun _ args => .ok (.string (String.join (args.map concatPart)))

/-- Null comes before every string. -/
def compareStrings (mode : StringComparison) : Value → Value → Except EvalError Ordering
  | .null, .null => .ok .eq
  | .null, _ => .ok .lt
  | _, .null => .ok .gt
  | a, b => do
    let x ← expectString "Compare" a
    let y ← expectString "Compare" b
    match mode with
    | .ordinal => .ok (compare x y)
    | .ordinalIgnoreCase => .ok (compare (Text.upper x) (Text.upper y))

def orderingValue : Ordering → Value
  | .lt => .int (-1)
  | .eq => .int 0
  | .gt => .int 1

def stringCompare : ClientMethod := fun _ args =>
  match args with
  | [a, b, m] =>
    match StringComparison.ofValue? m with
    | none => .error .compareMode
    | some mode => do
      let order ← compareStrings mode a b
      .ok (orderingValue order)
  | _ => .error .compareArguments

def abs : ClientMethod := fun _ args =>
  match args with
  | .int i :: _ =>
    match Number.abs? i with
    | some n => .ok (.int n)
    | none => .error .absOverflow
  | .float x :: _ => .ok (.float x.abs)
  | _ => .error .absOperand

/-- The first argument if it compares to the second as `keep` says, or equals it. -/
def extremum (keep : Ordering) : ClientMethod := fun _ args =>
  match args with
  | [a, b] =>
    match a.compare? b with
    | some order => .ok (if order = keep ∨ order = .eq then a else b)
    | none => .error .extremumOperands
  | _ => .error .extremumArguments

def methods : List (Signature × ClientMethod) :=
  [(⟨Owner.string, "StartsWith", 1⟩, stringTest "StartsWith" List.isPrefixOf),
   (⟨Owner.string, "EndsWith", 1⟩, stringTest "EndsWith" List.isSuffixOf),
   (⟨Owner.string, "Contains", 1⟩, stringTest "Contains" occursIn),
   (⟨Owner.string, "ToUpper", 0⟩, stringMap "ToUpper" Text.upper),
   (⟨Owner.string, "ToLower", 0⟩, stringMap "ToLower" Text.lower),
   (⟨Owner.string, "Trim", 0⟩, stringMap "Trim" Text.trim),
   (⟨Owner.string, "IsNullOrEmpty", 1⟩, isNullOrEmpty),
   (⟨Owner.string, "Concat", 2⟩, concat),
   (Method.stringCompare.signature, stringCompare),
   (⟨Owner.math, "Abs", 1⟩, abs),
   (⟨Owner.math, "Max", 2⟩, extremum .gt),
   (⟨Owner.math, "Min", 2⟩, extremum .lt)]

def members (ambient : Ambient) : List (Member × ClientMember) :=
  let now : ClientMember := fun _ => .ok (.instant ambient.now)
  [(⟨Owner.string, "Length"⟩, length),
   (⟨Owner.guid, "Empty"⟩, fun _ => .ok (.uuid .empty)),
   (Member.now, now),
   (Member.utcNow, now),
   (Member.offsetNow, now),
   (Member.offsetUtcNow, now),
   (Member.today, fun _ => .ok (.instant ambient.now.midnight))]

end Builtin

def FunctionTable.builtin (ambient : Ambient) : FunctionTable :=
  ⟨(Builtin.methods.map fun (s, f) => (s, .computed f))
      ++ [(Method.newGuid.signature, .fresh ambient.fresh)],
    Builtin.members ambient⟩

end QueryTree
