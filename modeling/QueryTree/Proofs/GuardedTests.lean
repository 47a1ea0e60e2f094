import QueryTree.Proofs.FreshIdentifiers
import QueryTree.Proofs.Normalization

/-! String tests on null. A guarded test has a truth value wherever its operands are strings or
null, and neither the test nor its negation holds of null. Only a test for the literal empty string
does not look at its subject. -/

namespace QueryTree

/-- The value of a text that may be missing. -/
def Value.ofText? : Option String → Value
  | none => .null
  | some t => .string t

namespace Normal

open Interpreter

variable {ip : Interpreter} {env : Env} {subject argument : Expr} {m : Method} {negated : Bool}

/-- What a string test says of its subject and its argument. -/
def Passes (m : Method) (subject argument : String) : Prop :=
  m.signature = Method.stringStartsWith.signature ∧ argument.toList <+: subject.toList ∨
  m.signature = Method.stringEndsWith.signature ∧ argument.toList <:+ subject.toList

instance (m : Method) (subject argument : String) : Decidable (Passes m subject argument) :=
  inferInstanceAs (Decidable (_ ∨ _))

theorem passes_empty (hm : isStringTest m = true) (subject : String) : Passes m subject "" := by
  rcases isStringTest_iff.mp hm with hm | hm
  · exact .inl ⟨hm, by simp⟩
  · exact .inr ⟨hm, by simp⟩

/-- The built-in functions test strings for their start and their end. -/
theorem callMethod_passes {ambient : Ambient} (hip : ip.functions = .builtin ambient)
    (hm : isStringTest m = true) (t u : String) :
    ip.callMethod (some (.string t)) m [.string u] = .ok (.bool (decide (Passes m t u))) := by
  have hbuiltin : ∀ name test, ip.functions.method? m.signature =
      some (Builtin.stringTest name test) →
      (test u.toList t.toList = true ↔ Passes m t u) →
      ip.callMethod (some (.string t)) m [.string u] = .ok (.bool (decide (Passes m t u))) := by
    intro name test hmethod htest
    rw [callMethod, hmethod, ← Bool.eq_iff_iff.mpr (htest.trans decide_eq_true_iff.symm)]
    rfl
  have hne : Method.stringStartsWith.signature ≠ Method.stringEndsWith.signature := by decide
  rcases isStringTest_iff.mp hm with hm | hm
  · refine hbuiltin "StartsWith" List.isPrefixOf (by rw [hip, hm]; rfl) ?_
    simp [Passes, hm, hne]
  · refine hbuiltin "EndsWith" List.isSuffixOf (by rw [hip, hm]; rfl) ?_
    simp [Passes, hm, hne.symm]

/-- A guarded test that is not for the literal empty string has a truth value: the test, or its
negation, is true of two strings only. -/
theorem eval_guardedTest {ambient : Ambient} (hip : ip.functions = .builtin ambient)
    (hm : isStringTest m = true) (hliteral : argument ≠ .constant (.string ""))
    {x y : Option String}
    (hs : ip.eval subject env = .ok (.ofText? x)) (ha : ip.eval argument env = .ok (.ofText? y)) :
    ∃ holds, ip.eval (guardedTest negated subject m argument) env = .ok (.bool holds) ∧
      (holds = true ↔ ∃ t ∈ x, ∃ u ∈ y, (Passes m t u ↔ negated = false)) := by
  simp only [← eval_plain] at hs ha ⊢
  cases x with
  | none =>
    refine ⟨false, ?_, by simp⟩
    rw [guardedTest_eq_ifPresent hliteral, eval_ifPresent, hs]
    rfl
  | some t =>
    cases y with
    | none =>
      refine ⟨false, ?_, by simp⟩
      rw [guardedTest_eq_ifPresent hliteral, eval_ifPresent, hs, ha]
      rfl
    | some u =>
      refine ⟨_, guardedTest_eval hs ha (callMethod_passes hip hm t u) ?_, ?_⟩
      · rintro rfl
        exact decide_eq_true (passes_empty hm t)
      · cases negated <;> simp

/-- A test and its negation are rewritten over the rewritten operands. -/
theorem stringTests_call (hm : isStringTest m = true) (negated : Bool) (s a : Expr) :
    stringTests (negatedIf negated (.call s m [a])) =
      guardedTest negated (stringTests s) m (stringTests a) :=
  stringTests_of_test (by cases negated <;> simp [negatedIf, Expr.not, test?, hm])

theorem supplies_passRule {t : FunctionTable}
    (h : t.supply? Method.stringCompare.signature = none) :
    Expr.PassRule fun n => t.supplies n = false where
  constant _ _ := rfl
  unary _ _ _ := rfl
  binary _ _ _ _ := rfl
  lambda _ _ _ := rfl
  conditional _ _ _ _ := rfl
  member _ _ _ _ hn := hn
  call _ _ _ _ _ _ _ hn := hn
  staticCall _ _ _ _ _ hn := hn
  invoke _ _ _ _ _ _ hn := hn
  var _ := rfl
  comparison _ _ _ _ _ _ _ _ _ := by simp [compareCall, FunctionTable.supplies, h]

theorem all_supplies_stringTests {ambient : Ambient} (hip : ip.functions = .builtin ambient)
    {e : Expr} (h : e.All fun n => ip.functions.supplies n = false) :
    (stringTests e).All fun n => ip.functions.supplies n = false := by
  have hcompare : ip.functions.supply? Method.stringCompare.signature = none := by
    rw [hip]
    rfl
  have hthroughout : e.Throughout (fun _ n => ip.functions.supplies n = false) [] :=
    Expr.throughout_iff_all.mpr h
  exact Expr.throughout_iff_all.mp
    (stringTests_throughout (supplies_passRule hcompare).rewriteRule hthroughout)

/-- A test and its negation take what they are over from their operands. -/
theorem all_supplies_test {ambient : Ambient} (hip : ip.functions = .builtin ambient)
    (hm : isStringTest m = true) {s a : Expr}
    (hs : s.All fun n => ip.functions.supplies n = false)
    (ha : a.All fun n => ip.functions.supplies n = false) (negated : Bool) :
    (negatedIf negated (.call s m [a])).All fun n => ip.functions.supplies n = false := by
  have hcall : (Expr.call s m [a]).All fun n => ip.functions.supplies n = false := by
    rw [Expr.all_iff_children]
    refine ⟨?_, by simpa [Expr.children] using ⟨hs, ha⟩⟩
    rcases isStringTest_iff.mp hm with hm | hm <;>
      simp only [FunctionTable.supplies, hm, hip] <;> rfl
  cases negated with
  | false => exact hcall
  | true =>
    rw [negatedIf, if_pos rfl, Expr.not, Expr.all_iff_children]
    exact ⟨rfl, by simpa [Expr.children] using hcall⟩

/-- String tests are safe on null. Where the operands evaluate to strings or null, the test is true
if both are strings that pass it, and its negation is true if both are strings that do not. A test
for the literal empty string is true, whatever its subject. The guard evaluates the operands once
more, so they must not call for fresh identifiers. -/
theorem evaluateIn_stringTests_nullSafe (ip : Interpreter) (ambient : Ambient)
    (hip : ip.functions = .builtin ambient) (env : Env) (s a : Expr) (m : Method)
    (hm : m.signature = Method.stringStartsWith.signature ∨
      m.signature = Method.stringEndsWith.signature) :
    (stringTests a = .constant (.string "") →
      ip.evaluateIn (stringTests (.call s m [a])) env = .ok (.bool true) ∧
      ip.evaluateIn (stringTests (.not (.call s m [a]))) env = .ok (.bool false)) ∧
    (stringTests a ≠ .constant (.string "") →
      (s.All fun n => ip.functions.supplies n = false) →
      (a.All fun n => ip.functions.supplies n = false) → ∀ x y : Option String,
      ip.evaluateIn (stringTests s) env = .ok (.ofText? x) →
      ip.evaluateIn (stringTests a) env = .ok (.ofText? y) →
      (∃ holds, ip.evaluateIn (stringTests (.call s m [a])) env = .ok (.bool holds) ∧
        (holds = true ↔ ∃ t ∈ x, ∃ u ∈ y, Passes m t u)) ∧
      ∃ fails, ip.evaluateIn (stringTests (.not (.call s m [a]))) env = .ok (.bool fails) ∧
        (fails = true ↔ ∃ t ∈ x, ∃ u ∈ y, ¬ Passes m t u)) := by
  have htest := isStringTest_iff.mpr hm
  constructor
  · intro hliteral
    rw [show stringTests (.call s m [a]) = _ from stringTests_call htest false s a,
      show stringTests (.not (.call s m [a])) = _ from stringTests_call htest true s a, hliteral]
    exact ⟨rfl, rfl⟩
  · intro hliteral hs ha x y hx hy
    rw [evaluateIn_eq_eval (all_supplies_stringTests hip hs)] at hx
    rw [evaluateIn_eq_eval (all_supplies_stringTests hip ha)] at hy
    have hrewritten : ∀ negated, ∃ holds,
        ip.evaluateIn (stringTests (negatedIf negated (.call s m [a]))) env = .ok (.bool holds) ∧
          (holds = true ↔ ∃ t ∈ x, ∃ u ∈ y, (Passes m t u ↔ negated = false)) := by
      intro negated
      rw [evaluateIn_eq_eval
        (all_supplies_stringTests hip (all_supplies_test hip htest hs ha negated)),
        stringTests_call htest]
      exact eval_guardedTest hip htest hliteral hx hy
    constructor
    · simpa [negatedIf] using hrewritten false
    · simpa [negatedIf] using hrewritten true

/-- A part that another test chooses, with an argument that may be null. -/
def chosenPart : Expr :=
  .conditional (.call (.var "name") .stringEndsWith [.var "other"]) (.var "name") (.var "part")

def chosenEnv : Env := [("name", .string "alpha"), ("part", .string "al"), ("other", .null)]

theorem evaluateIn_stringTests_nullSafe_chosenPart :
    (Interpreter.builtin ⟨⟨0, 0⟩, fun _ => .empty⟩).evaluateIn
      (stringTests (.call (.var "name") .stringStartsWith [chosenPart])) chosenEnv =
        .ok (.bool true) ∧
    (Interpreter.builtin ⟨⟨0, 0⟩, fun _ => .empty⟩).evaluateIn
      (stringTests (.not (.call (.var "name") .stringStartsWith [chosenPart]))) chosenEnv =
        .ok (.bool false) := by
  have hpasses : Passes .stringStartsWith "alpha" "al" := by decide
  obtain ⟨⟨holds, hholds, hiff⟩, fails, hfails, hiff'⟩ :=
    (evaluateIn_stringTests_nullSafe (.builtin ⟨⟨0, 0⟩, fun _ => .empty⟩) _ rfl chosenEnv
      (.var "name") chosenPart .stringStartsWith (.inl rfl)).2 (by decide) (by decide) (by decide)
      (some "alpha") (some "al") rfl rfl
  obtain rfl : holds = true := by simpa [hpasses] using hiff
  obtain rfl : fails = false := by simpa [hpasses] using hiff'
  exact ⟨hholds, hfails⟩

/-- A text if a fresh identifier has a digit, and null otherwise. -/
def textIfDigit : Expr := .conditional .drawsDigit (.constant (.string "x")) .null

/-- The guard sees a text and the test proper null, where each draws an identifier of its own. -/
theorem evaluate_stringTests_fresh :
    (Interpreter.builtin .digitFirst).evaluate (stringTests textIfDigit) = .ok (.string "x") ∧
    (Interpreter.builtin .digitFirst).evaluate
      (stringTests (.call textIfDigit .stringStartsWith [.constant (.string "x")])) =
        .error (.nullReceiver "StartsWith") :=
  ⟨rfl, rfl⟩

end Normal

end QueryTree
