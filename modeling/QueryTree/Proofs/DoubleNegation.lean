import QueryTree.Proofs.GuardedTests
import QueryTree.Proofs.NegationForm

/-! Double negations. Two negations in front of an expression cancel, and its normal form stays the
same, unless the expression comes out as a string test. Of two negations in front of a test the
inner one is taken into the guard, and the outer one then turns the guard around: on null, the test
that is negated twice is true and the test itself is false. -/

namespace QueryTree

namespace Normal

open Interpreter

variable {ip : Interpreter} {env : Env} {e s a rest : Expr} {m : Method} {x : Value}

/-! ### Passes over negations -/

theorem negations_not_not (e : Expr) : negations (.not (.not e)) false = negations e false := by
  simp only [Expr.not, negations, Bool.not_false, Bool.not_true]

theorem comparisons_not (e : Expr) : comparisons (.not e) = .not (comparisons e) := by
  simp only [Expr.not, comparisons]

theorem invocations_not (limit : Nat) (e : Expr) :
    invocations limit (.not e) = (invocations limit e).map .not := by
  have hunfold : ∀ again, unfoldWith again (.not e) = (unfoldWith again e).map .not := by
    intro again
    rw [Expr.not, unfoldWith]
    cases unfoldWith again e <;> rfl
  cases limit with
  | zero => exact hunfold _
  | succ limit => exact hunfold _

/-- A negation is not looked at together with its operand unless that is a string test. -/
theorem stringTests_not (h : ∀ s m a, test? e ≠ some (false, s, m, a)) :
    stringTests (.not e) = .not (stringTests e) := by
  cases htest : test? (.not e) with
  | none => exact stringTests_of_none htest
  | some test =>
    obtain ⟨negated, s, m, a⟩ := test
    obtain ⟨hm, heq⟩ := eq_of_test? htest
    cases negated with
    | false => cases heq
    | true =>
      obtain rfl : e = .call s m [a] := (Expr.unary.inj heq).2
      exact absurd (by simp [test?, hm]) (h s m a)

theorem test?_not_ne (e s : Expr) (m : Method) (a : Expr) :
    test? (.not e) ≠ some (false, s, m, a) := by
  intro htest
  cases (eq_of_test? htest).2

/-! ### Guards -/

theorem negations_ifPresent (negated : Bool) (s a rest : Expr) :
    negations (ifPresent false s a rest) negated = (do
      let s ← negations s false
      let a ← negations a false
      let rest ← negations rest negated
      .ok (ifPresent negated s a rest)) := by
  rw [ifPresent, if_neg Bool.false_ne_true]
  cases negated with
  | false =>
    simp only [Expr.and, Expr.ne, negations]
    cases negations s false <;> cases negations a false <;> cases negations rest false <;> rfl
  | true =>
    simp only [Expr.and, Expr.ne, negations]
    cases negations s false <;> cases negations a false <;> cases negations rest true <;> rfl

theorem negations_testTail (call argument : Expr) :
    negations (testTail true call argument) true =
      negations (testTail false call argument) false := by
  unfold testTail
  cases argument.isConstant with
  | true => simp only [Expr.not, negations, Bool.not_true]
  | false =>
    simp only [Expr.not, Expr.and, Expr.or, Expr.eq, Expr.ne, negations, Bool.not_true]
    cases negations call false <;> cases negations argument false <;> rfl

theorem eval_ifPresent_null (hs : ip.eval s env = .ok x)
    (h : x = .null ∨ ip.eval a env = .ok .null) (missing : Bool) :
    ip.eval (ifPresent missing s a rest) env = .ok (.bool missing) := by
  simp only [← eval_plain] at hs h ⊢
  rw [eval_ifPresent, hs]
  rcases h with rfl | ha
  · rfl
  · simp [bind, Except.bind, ha, Value.isNull]

theorem eval_ifPresent_congr
    (h : ¬ ∃ x, ip.eval s env = .ok x ∧ (x = .null ∨ ip.eval a env = .ok .null))
    (missing missing' : Bool) :
    ip.eval (ifPresent missing s a rest) env = ip.eval (ifPresent missing' s a rest) env := by
  simp only [← eval_plain] at h ⊢
  rw [eval_ifPresent, eval_ifPresent]
  cases hs : ip.plain.eval s env with
  | error error => rfl
  | ok x =>
    have hx : x.isNull = false := isNull_eq_false fun hx => h ⟨x, hs, .inl hx⟩
    cases ha : ip.plain.eval a env with
    | error error => simp [bind, Except.bind, hx]
    | ok y =>
      have hy : y.isNull = false := isNull_eq_false fun hy => h ⟨x, hs, .inr (hy ▸ ha)⟩
      simp [bind, Except.bind, hx, hy]

/-- Pushed inward, a negation before the negated test and the test itself differ in what they are on
null. -/
theorem negations_guardedTest (hliteral : a ≠ .constant (.string "")) :
    ∃ s' a' rest, negations s false = .ok s' ∧ negations a false = .ok a' ∧
      negations (.not (guardedTest true s m a)) false = .ok (ifPresent true s' a' rest) ∧
      negations (guardedTest false s m a) false = .ok (ifPresent false s' a' rest) := by
  obtain ⟨s', hs, -⟩ := (negations_rests s false).exists_ok
  obtain ⟨a', ha, -⟩ := (negations_rests a false).exists_ok
  obtain ⟨rest, hrest, -⟩ := (negations_rests (testTail false (.call s m [a]) a) false).exists_ok
  refine ⟨s', a', rest, hs, ha, ?_, ?_⟩
  · rw [guardedTest_eq_ifPresent hliteral, Expr.not, negations, Bool.not_false, negations_ifPresent,
      negations_testTail, hs, ha, hrest]
    rfl
  · rw [guardedTest_eq_ifPresent hliteral, negations_ifPresent, hs, ha, hrest]
    rfl

/-- A string test, not for the literal empty string, that evaluation finds to have a null
operand. -/
def TestsNull (ip : Interpreter) (env : Env) (e : Expr) : Prop :=
  ∃ s m a s' a' x, e = .call s m [a] ∧ isStringTest m = true ∧
    stringTests a ≠ .constant (.string "") ∧
    negations (stringTests s) false = .ok s' ∧ negations (stringTests a) false = .ok a' ∧
    ip.eval s' env = .ok x ∧ (x = .null ∨ ip.eval a' env = .ok .null)

theorem testsNull_call (hm : isStringTest m = true)
    (hliteral : stringTests a ≠ .constant (.string ""))
    {s' a' : Expr} (hs : negations (stringTests s) false = .ok s')
    (ha : negations (stringTests a) false = .ok a') :
    TestsNull ip env (.call s m [a]) ↔
      ∃ x, ip.eval s' env = .ok x ∧ (x = .null ∨ ip.eval a' env = .ok .null) := by
  constructor
  · rintro ⟨_, _, _, s₁, a₁, x, ⟨⟩, -, -, hs₁, ha₁, hx, hnull⟩
    obtain rfl := Except.ok.inj (hs.symm.trans hs₁)
    obtain rfl := Except.ok.inj (ha.symm.trans ha₁)
    exact ⟨x, hx, hnull⟩
  · rintro ⟨x, hx, hnull⟩
    exact ⟨s, m, a, s', a', x, rfl, hm, hliteral, hs, ha, hx, hnull⟩

/-- A string test and its double negation, in normal form, differ exactly on null. -/
theorem eval_test_not_not (hm : isStringTest m = true) :
    ∃ twice once, negations (.not (stringTests (.not (.call s m [a])))) false = .ok twice ∧
      negations (stringTests (.call s m [a])) false = .ok once ∧
      (TestsNull ip env (.call s m [a]) →
        ip.eval twice env = .ok (.bool true) ∧ ip.eval once env = .ok (.bool false)) ∧
      (¬ TestsNull ip env (.call s m [a]) → ip.eval twice env = ip.eval once env) := by
  rw [show stringTests (.call s m [a]) = _ from stringTests_call hm false s a,
    show stringTests (.not (.call s m [a])) = _ from stringTests_call hm true s a]
  by_cases hliteral : stringTests a = .constant (.string "")
  · rw [hliteral]
    refine ⟨.constant (.bool true), .constant (.bool true), rfl, rfl, ?_, fun _ => rfl⟩
    rintro ⟨_, _, _, _, _, _, ⟨⟩, -, hne, -⟩
    exact absurd hliteral hne
  · obtain ⟨s', a', rest, hs, ha, htwice, honce⟩ := negations_guardedTest hliteral
    refine ⟨_, _, htwice, honce, ?_⟩
    rw [testsNull_call hm hliteral hs ha]
    constructor
    · rintro ⟨x, hx, hnull⟩
      exact ⟨eval_ifPresent_null hx hnull true, eval_ifPresent_null hx hnull false⟩
    · exact fun hnot => eval_ifPresent_congr hnot true false

end Normal

namespace Pass

open Interpreter QueryTree.Normal

theorem normalize_run {limit : Nat} {e r : Expr}
    (hr : Normal.invocations limit (Normal.comparisons e) = .ok r) :
    (normalize limit).run e = Normal.negations (Normal.stringTests r) false := by
  calc (normalize limit).run e
    _ = (do
        let r ← Normal.invocations limit (Normal.comparisons e)
        let e' ← Normal.negations (Normal.stringTests r) false
        .ok e') := rfl
    _ = (do
        let e' ← Normal.negations (Normal.stringTests r) false
        .ok e') := by
      rw [hr]
      rfl
    _ = Normal.negations (Normal.stringTests r) false := by
      cases Normal.negations (Normal.stringTests r) false <;> rfl

/-- Unfolding goes past negations, and the outer one of two is no part of a string test. -/
theorem normalize_run_not_not {limit : Nat} {p q : Expr}
    (hq : Normal.invocations limit (Normal.comparisons p) = .ok q) :
    (normalize limit).run (.not (.not p)) =
      Normal.negations (.not (Normal.stringTests (.not q))) false := by
  rw [← stringTests_not (test?_not_ne q)]
  apply normalize_run
  rw [comparisons_not, comparisons_not, invocations_not, invocations_not, hq]
  rfl

/-- Two negations before an expression make no difference, unless it is unfolded to a string
test with a null operand: negated twice, such a test is true in normal form, and by itself it is
false. -/
theorem normalize_not_not (ip : Interpreter) (env : Env) (limit : Nat) (p q : Expr)
    (hq : Normal.invocations limit (Normal.comparisons p) = .ok q) :
    ∃ twice once, (normalize limit).run (.not (.not p)) = .ok twice ∧
      (normalize limit).run p = .ok once ∧
      (TestsNull ip env q →
        ip.eval twice env = .ok (.bool true) ∧ ip.eval once env = .ok (.bool false)) ∧
      (¬ TestsNull ip env q → ip.eval twice env = ip.eval once env) := by
  rw [normalize_run_not_not hq, normalize_run hq]
  by_cases htest : ∃ s m a, test? q = some (false, s, m, a)
  · obtain ⟨s, m, a, htest⟩ := htest
    obtain ⟨hm, rfl⟩ := eq_of_test? htest
    exact eval_test_not_not hm
  · have hne : ∀ s m a, test? q ≠ some (false, s, m, a) := fun s m a h => htest ⟨s, m, a, h⟩
    rw [stringTests_not hne, negations_not_not]
    obtain ⟨once, honce, -⟩ := (negations_rests (Normal.stringTests q) false).exists_ok
    refine ⟨once, once, honce, honce, ?_, fun _ => rfl⟩
    rintro ⟨s, m, a, _, _, _, rfl, hm, -⟩
    exact absurd (by simp [test?, hm]) (hne s m a)

/-- A string test that comes from an invoked lambda. -/
def invokedTest : Expr :=
  .invoke (.lambda ["x"] (.call (.var "x") .stringStartsWith [.var "y"]))
    [.constant (.string "alpha")]

theorem normalize_not_not_invokedTest :
    ∃ twice once, (normalize 1).run (.not (.not invokedTest)) = .ok twice ∧
      (normalize 1).run invokedTest = .ok once ∧
      (Interpreter.builtin ⟨⟨0, 0⟩, fun _ => .empty⟩).eval twice [("y", .string "al")] =
        (Interpreter.builtin ⟨⟨0, 0⟩, fun _ => .empty⟩).eval once [("y", .string "al")] := by
  obtain ⟨twice, once, htwice, honce, -, hsame⟩ :=
    normalize_not_not (.builtin ⟨⟨0, 0⟩, fun _ => .empty⟩) [("y", .string "al")] 1 invokedTest
      (.call (.constant (.string "alpha")) .stringStartsWith [.var "y"]) rfl
  refine ⟨twice, once, htwice, honce, hsame ?_⟩
  rw [testsNull_call rfl (by decide) rfl rfl]
  rintro ⟨x, hx, rfl | hy⟩
  · cases hx
  · cases hy

/-- On null, a test that is negated twice is true and the test itself is false. -/
theorem normalize_not_not_nullSubject :
    ∃ twice once,
      (normalize 0).run (.not (.not (.call .null .stringStartsWith [.constant (.string "a")]))) =
        .ok twice ∧
      (normalize 0).run (.call .null .stringStartsWith [.constant (.string "a")]) = .ok once ∧
      (Interpreter.builtin ⟨⟨0, 0⟩, fun _ => .empty⟩).eval twice [] = .ok (.bool true) ∧
      (Interpreter.builtin ⟨⟨0, 0⟩, fun _ => .empty⟩).eval once [] = .ok (.bool false) :=
  ⟨_, _, rfl, rfl, rfl, rfl⟩

end Pass

end QueryTree
