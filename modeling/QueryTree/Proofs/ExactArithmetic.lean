import Mathlib.Algebra.Ring.Int.Defs
import Mathlib.Tactic.MkIffOfInductiveProp
import QueryTree.Proofs.CompleteFolding

/-! Integer arithmetic is exact. A tree of 64-bit integers has its mathematical value if that of
each of its nodes fits, and an error otherwise; a remainder also needs its quotient to fit. What
overflows inside a tree is not made up for further out. -/

namespace QueryTree

/-! ### Words -/

namespace Number

variable {m n : Int} {w : Int64}

/-- The integers that 64 bits hold. -/
def InWord (n : Int) : Prop := -2 ^ 63 ≤ n ∧ n < 2 ^ 63

instance (n : Int) : Decidable (InWord n) := inferInstanceAs (Decidable (_ ∧ _))

theorem inWord_toInt (w : Int64) : InWord w.toInt := ⟨w.le_toInt, w.toInt_lt⟩

theorem InWord.exists_toInt (h : InWord n) : ∃ w : Int64, w.toInt = n :=
  ⟨_, Int64.toInt_ofInt_of_le h.1 h.2⟩

theorem word?_eq_some_iff : word? n = some w ↔ w.toInt = n := by
  unfold word?
  split
  next hn =>
    rw [Option.some_inj, ← Int64.toInt_inj, Int64.toInt_ofInt_of_le hn.1 hn.2]
    exact eq_comm
  next hn =>
    refine iff_of_false nofun ?_
    rintro rfl
    exact hn (inWord_toInt w)

/-- The one quotient that is too large is that of the least integer by minus one. -/
theorem inWord_tdiv_iff (hm : InWord m) (hn : n ≠ 0) :
    InWord (m.tdiv n) ↔ ¬ (m = -2 ^ 63 ∧ n = -1) := by
  unfold InWord at hm ⊢
  by_cases hminus : n = -1
  · subst hminus
    rw [Int.tdiv_neg, Int.tdiv_one]
    omega
  by_cases hone : n = 1
  · subst hone
    rw [Int.tdiv_one]
    omega
  have hquotient : (m.tdiv n).natAbs ≤ m.natAbs / 2 := by
    rw [Int.natAbs_tdiv]
    exact Nat.div_le_div_left (by omega) (by decide)
  omega

/-- A remainder is no larger than the dividend and lies on the same side of zero. -/
theorem inWord_tmod (hm : InWord m) : InWord (m.tmod n) := by
  unfold InWord at hm ⊢
  have hle : (m.tmod n).natAbs ≤ m.natAbs := by
    rw [Int.natAbs_tmod]
    exact Nat.mod_le _ _
  have hnonneg : 0 ≤ m → 0 ≤ m.tmod n := Int.tmod_nonneg n
  have hnonpos : 0 ≤ -m → 0 ≤ -m.tmod n := fun h => Int.neg_tmod m n ▸ Int.tmod_nonneg n h
  omega

end Number

open Number

/-! ### Operators -/

namespace BinaryOp

/-- The operators that compute with numbers. -/
def isArithmetic : BinaryOp → Bool
  | add | sub | mul | div | mod => true
  | _ => false

/-- The exact result. A quotient is truncated toward zero, and a remainder has the sign of the
dividend. -/
def exactResult : BinaryOp → Int → Int → Int
  | add, m, n => m + n
  | sub, m, n => m - n
  | mul, m, n => m * n
  | div, m, n => m.tdiv n
  | mod, m, n => m.tmod n
  | _, _, _ => 0

/-- An operator has a result on 64-bit operands: the exact result fits, a divisor is not zero, and
the quotient that belongs to a remainder fits. -/
@[mk_iff]
structure Fits (op : BinaryOp) (m n : Int) : Prop where
  result : InWord (op.exactResult m n)
  divisor : op = div ∨ op = mod → n ≠ 0
  quotient : op = mod → ¬ (m = -2 ^ 63 ∧ n = -1)

instance (op : BinaryOp) (m n : Int) : Decidable (op.Fits m n) :=
  decidable_of_iff _ (fits_iff op m n).symm

/-- Why an operator has no result. -/
def fault (op : BinaryOp) (n : Int) : EvalError :=
  if (op = div ∨ op = mod) ∧ n = 0 then .divisionByZero else .integerOverflow op

def checked? (op : BinaryOp) (x y : Int64) : Option Int64 :=
  match op with
  | add => add? x y
  | sub => sub? x y
  | mul => mul? x y
  | div => div? x y
  | mod => mod? x y
  | _ => none

variable {op : BinaryOp} {x y w : Int64}

theorem checked?_eq_some_iff (hop : op.isArithmetic = true)
    (hy : op = div ∨ op = mod → y.toInt ≠ 0) :
    op.checked? x y = some w ↔
      op.Fits x.toInt y.toInt ∧ w.toInt = op.exactResult x.toInt y.toInt := by
  by_cases hmod : op = mod
  · subst hmod
    have hquotient := inWord_tdiv_iff (inWord_toInt x) (hy (.inr rfl))
    simp only [checked?, mod?, div?, Option.bind_eq_some_iff, word?_eq_some_iff]
    constructor
    · rintro ⟨q, hq, hw⟩
      exact ⟨⟨inWord_tmod (inWord_toInt x), hy, fun _ => hquotient.mp (hq ▸ inWord_toInt q)⟩, hw⟩
    · rintro ⟨hfits, hw⟩
      obtain ⟨q, hq⟩ := (hquotient.mpr (hfits.quotient rfl)).exists_toInt
      exact ⟨q, hq, hw⟩
  · have hword : op.checked? x y = word? (op.exactResult x.toInt y.toInt) := by
      cases op with
      | add | sub | mul | div => rfl
      | mod => exact absurd rfl hmod
      | _ => cases hop
    rw [hword, word?_eq_some_iff]
    constructor
    · intro hw
      exact ⟨⟨hw ▸ inWord_toInt w, hy, fun h => absurd h hmod⟩, hw⟩
    · exact And.right

end BinaryOp

namespace Value

open BinaryOp

variable {op : BinaryOp}

theorem integerArithmetic_eq (op : BinaryOp) (x y : Int64) :
    integerArithmetic op x y =
      if (op = .div ∨ op = .mod) ∧ y = 0 then .error .divisionByZero
      else
        match op.checked? x y with
        | some n => .ok (int n)
        | none => .error (.integerOverflow op) := rfl

/-- Integer arithmetic yields the exact result or says why there is none. -/
theorem integerArithmetic_cases (hop : op.isArithmetic = true) (x y : Int64) :
    (op.Fits x.toInt y.toInt ∧ ∃ w : Int64, w.toInt = op.exactResult x.toInt y.toInt ∧
      integerArithmetic op x y = .ok (int w)) ∨
    ¬ op.Fits x.toInt y.toInt ∧ integerArithmetic op x y = .error (op.fault y.toInt) := by
  have hzero : y = 0 ↔ y.toInt = 0 := Int64.toInt_inj.symm
  simp only [integerArithmetic_eq, fault, hzero]
  by_cases hdivisor : (op = .div ∨ op = .mod) ∧ y.toInt = 0
  · rw [if_pos hdivisor, if_pos hdivisor]
    exact .inr ⟨fun hfits => hfits.divisor hdivisor.1 hdivisor.2, rfl⟩
  · rw [if_neg hdivisor, if_neg hdivisor]
    have hchecked :=
      fun w => checked?_eq_some_iff (x := x) (w := w) hop fun h h0 => hdivisor ⟨h, h0⟩
    cases hresult : op.checked? x y with
    | some w =>
      obtain ⟨hfits, hw⟩ := (hchecked w).mp hresult
      exact .inl ⟨hfits, w, hw, rfl⟩
    | none =>
      refine .inr ⟨fun hfits => ?_, rfl⟩
      obtain ⟨w, hw⟩ := hfits.result.exists_toInt
      have hsome := (hchecked w).mpr ⟨hfits, hw⟩
      rw [hresult] at hsome
      cases hsome

theorem negated_int (x : Int64) :
    negated (int x) =
      match word? (-x.toInt) with
      | some n => .ok (int n)
      | none => .error .negationOverflow := rfl

theorem negated_cases (x : Int64) :
    (InWord (-x.toInt) ∧ ∃ w : Int64, w.toInt = -x.toInt ∧ negated (int x) = .ok (int w)) ∨
    ¬ InWord (-x.toInt) ∧ negated (int x) = .error .negationOverflow := by
  rw [negated_int]
  cases hresult : word? (-x.toInt) with
  | some w =>
    have hw := word?_eq_some_iff.mp hresult
    exact .inl ⟨hw ▸ inWord_toInt w, w, hw, rfl⟩
  | none =>
    refine .inr ⟨fun hn => ?_, rfl⟩
    obtain ⟨w, hw⟩ := hn.exists_toInt
    rw [word?_eq_some_iff.mpr hw] at hresult
    cases hresult

end Value

/-! ### Trees -/

namespace Expr

/-- Trees of integers under negation and arithmetic operators. -/
inductive IsArithmetic : Expr → Prop where
  | constant (n : Int64) : IsArithmetic (constant (.int n))
  | negate {e : Expr} (he : IsArithmetic e) : IsArithmetic (unary .negate e)
  | binary {op : BinaryOp} {l r : Expr} (hop : op.isArithmetic = true) (hl : IsArithmetic l)
      (hr : IsArithmetic r) : IsArithmetic (binary op l r)

/-- The value of a tree among all integers. -/
def exactValue : Expr → Int
  | constant (.int n) => n.toInt
  | unary .negate e => -e.exactValue
  | binary op l r => op.exactResult l.exactValue r.exactValue
  | _ => 0

/-- A node has its exact value in 64 bits, once its direct subexpressions have theirs. -/
def Representable : Expr → Prop
  | binary op l r => op.Fits l.exactValue r.exactValue
  | e => InWord e.exactValue

instance : (e : Expr) → Decidable e.Representable
  | binary op l r => inferInstanceAs (Decidable (op.Fits l.exactValue r.exactValue))
  | constant _ | parameter _ | var _ | member _ _ | staticMember _ | call _ _ _ | staticCall _ _
  | unary _ _ | lambda _ _ | conditional _ _ _ | invoke _ _ | context | entityQuery _ | sourceRef _
  | subQuery _ => inferInstanceAs (Decidable (InWord _))

/-- Why a node has no value although its direct subexpressions have one. -/
def arithmeticFault : Expr → EvalError
  | binary op _ r => op.fault r.exactValue
  | _ => .negationOverflow

end Expr

open QueryTree.Expr

/-- How the evaluation of a tree ends: with its exact value if all nodes are representable, and
otherwise with the fault of a node that is not, although all nodes below it are. -/
inductive Expr.Ends (e : Expr) : Except EvalError Value → Prop where
  | value {n : Int64} (h : e.All Representable) (hn : n.toInt = e.exactValue) :
      Ends e (.ok (.int n))
  | fault {n : Expr} (hn : n ∈ e.nodes) (hfails : ¬ n.Representable)
      (hbelow : ∀ c ∈ n.children, c.All Representable) : Ends e (.error n.arithmeticFault)

namespace Expr.Ends

variable {e c : Expr} {result : Except EvalError Value} {error : EvalError}

theorem of_child (hc : c ∈ e.children) (h : c.Ends (.error error)) : e.Ends (.error error) := by
  cases h with
  | fault hn hfails hbelow => exact .fault (mem_nodes_of_child hc hn) hfails hbelow

/-- A node over representable trees has a value just if it is representable itself. -/
theorem of_node (hbelow : ∀ c ∈ e.children, c.All Representable)
    (h : (e.Representable ∧ ∃ w : Int64, w.toInt = e.exactValue ∧ result = .ok (.int w)) ∨
      ¬ e.Representable ∧ result = .error e.arithmeticFault) : e.Ends result := by
  rcases h with ⟨hnode, w, hw, rfl⟩ | ⟨hfails, rfl⟩
  · exact .value (all_iff_children.mpr ⟨hnode, hbelow⟩) hw
  · exact .fault e.mem_nodes_self hfails hbelow

end Expr.Ends

namespace Interpreter

variable {ip : Interpreter} {env : Env} {e : Expr}

theorem eval_arithmetic {op : BinaryOp} (hop : op.isArithmetic = true) (l r : Expr) :
    ip.eval (.binary op l r) env = (do
      let a ← ip.eval l env
      let b ← ip.eval r env
      Value.arithmetic op a b) := by
  cases op with
  | add | sub | mul | div | mod => rfl
  | _ => cases hop

theorem eval_ends (he : e.IsArithmetic) : e.Ends (ip.eval e env) := by
  induction he with
  | constant n =>
    exact .value (all_iff_children.mpr ⟨inWord_toInt n, nofun⟩) rfl
  | @negate e _ ih =>
    rw [eval]
    generalize ip.eval e env = result at ih ⊢
    cases ih with
    | fault hn hfails hbelow => exact .of_child (by simp [children]) (.fault hn hfails hbelow)
    | @value n h hn =>
      apply Ends.of_node (by simpa [children] using h)
      have hcases := Value.negated_cases n
      rw [hn] at hcases
      exact hcases
  | @binary op l r hop _ _ ihl ihr =>
    rw [eval_arithmetic hop]
    generalize ip.eval l env = left at ihl ⊢
    generalize ip.eval r env = right at ihr ⊢
    cases ihl with
    | fault hn hfails hbelow => exact .of_child (by simp [children]) (.fault hn hfails hbelow)
    | @value m hl hm =>
      cases ihr with
      | fault hn hfails hbelow => exact .of_child (by simp [children]) (.fault hn hfails hbelow)
      | @value n hr hn =>
        apply Ends.of_node (by simpa [children] using ⟨hl, hr⟩)
        have hcases := Value.integerArithmetic_cases hop m n
        rw [hm, hn] at hcases
        exact hcases

/-- A tree of integers calls for nothing, so it is evaluated as it stands. -/
theorem evaluate_of_isArithmetic (he : e.IsArithmetic) : ip.evaluate e = ip.eval e [] := by
  have hcalls : e.All fun n => ip.functions.supplies n = false := by
    induction he with
    | constant n => simp [All, nodes, FunctionTable.supplies]
    | negate _ ih => exact all_iff_children.mpr ⟨rfl, by simpa [children] using ih⟩
    | binary _ _ _ ihl ihr =>
      exact all_iff_children.mpr ⟨rfl, by simpa [children] using ⟨ihl, ihr⟩⟩
  rw [evaluate, FunctionTable.draw_eq_self hcalls]

/-- A tree of integers evaluates to an integer just if in exact arithmetic each of its nodes has a
value of 64 bits, no divisor is zero and no remainder of the least integer by minus one is taken;
the integer is then the exact value of the tree. Otherwise evaluation ends with the fault of a node,
whose operands have their exact values. -/
theorem evaluate_exact (ip : Interpreter) (e : Expr) (he : e.IsArithmetic) :
    (∀ n : Int64, ip.evaluate e = .ok (.int n) ↔
      (∀ node ∈ e.nodes, node.Representable) ∧ n.toInt = e.exactValue) ∧
    ((¬ ∀ node ∈ e.nodes, node.Representable) → ∃ node ∈ e.nodes, ¬ node.Representable ∧
      (∀ c ∈ node.children, ∀ below ∈ c.nodes, below.Representable) ∧
      ip.evaluate e = .error node.arithmeticFault) := by
  have hends : e.Ends (ip.evaluate e) := by
    rw [evaluate_of_isArithmetic he]
    exact eval_ends he
  generalize ip.evaluate e = result at hends ⊢
  cases hends with
  | @value m h hm =>
    refine ⟨fun n => ?_, fun hfails => absurd h hfails⟩
    rw [Except.ok.injEq, Value.int.injEq, ← Int64.toInt_inj, hm, eq_comm]
    exact (and_iff_right h).symm
  | @fault node hn hfails hbelow =>
    refine ⟨fun n => iff_of_false nofun fun h => hfails (h.1 node hn), fun _ => ?_⟩
    exact ⟨node, hn, hfails, hbelow, rfl⟩

/-- A sum that does not fit, less what makes it too large. -/
def undoneSum : Expr :=
  .binary .sub (.binary .add (.constant (.int 9223372036854775807)) (.constant (.int 1)))
    (.constant (.int 1))

/-- The least integer by two, and a remainder with the sign of its dividend. -/
def halvedLeast : Expr :=
  .binary .add
    (.binary .div (.constant (.int (-9223372036854775808)))
      (.unary .negate (.constant (.int (-2)))))
    (.binary .mod (.constant (.int (-7))) (.constant (.int 2)))

theorem evaluate_exact_least :
    (ofFunctions .empty).evaluate halvedLeast = .ok (.int (-4611686018427387905)) ∧
    ∃ node ∈ undoneSum.nodes, ¬ node.Representable ∧
      (∀ c ∈ node.children, ∀ below ∈ c.nodes, below.Representable) ∧
      (ofFunctions .empty).evaluate undoneSum = .error node.arithmeticFault := by
  have hhalved : halvedLeast.IsArithmetic :=
    .binary rfl (.binary rfl (.constant _) (.negate (.constant _)))
      (.binary rfl (.constant _) (.constant _))
  have hundone : undoneSum.IsArithmetic :=
    .binary rfl (.binary rfl (.constant _) (.constant _)) (.constant _)
  constructor
  · exact ((evaluate_exact _ _ hhalved).1 _).mpr ⟨by decide, by decide⟩
  · exact (evaluate_exact _ _ hundone).2 (by decide)

end Interpreter

end QueryTree
