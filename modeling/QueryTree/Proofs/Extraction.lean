import QueryTree.Parameter.Extraction
import QueryTree.Proofs.Names
import QueryTree.Proofs.Reference

/-! Steps of an extraction. A visit treats all nodes but lambdas alike. Parameters are numbered by
their position in the store, so a new one never takes the name of another. -/

namespace QueryTree

/-- Where a step of an extraction leads: to a result that is `Good`, or to an error that is
`Bad`. -/
def ExtractM.Leads {α : Type} (m : ExtractM α) (s : Extraction) (Good : α → Extraction → Prop)
    (Bad : Error → Extraction → Prop) : Prop :=
  match m s with
  | (.ok a, s') => Good a s'
  | (.error e, s') => Bad e s'

theorem ExtractM.bind_apply {α β : Type} (m : ExtractM α) (f : α → ExtractM β) (s : Extraction) :
    (m >>= f) s =
      match m s with
      | (.ok a, s') => f a s'
      | (.error e, s') => (.error e, s') := by
  simp only [Bind.bind, ExceptT.bind, ExceptT.bindCont, ExceptT.mk, StateT.bind]
  rcases m s with ⟨_ | _, _⟩ <;> rfl

namespace ExtractM.Leads

variable {α β : Type} {m : ExtractM α} {s : Extraction} {Good : α → Extraction → Prop}
  {Bad : Error → Extraction → Prop}

theorem pure {a : α} (h : Good a s) : Leads (Pure.pure a) s Good Bad := h

theorem bind {f : α → ExtractM β} {Next : β → Extraction → Prop} (hm : Leads m s Good Bad)
    (hf : ∀ a s', Good a s' → Leads (f a) s' Next Bad) : Leads (m >>= f) s Next Bad := by
  unfold Leads at hm ⊢
  rw [bind_apply]
  rcases hms : m s with ⟨error | a, s'⟩
  · rw [hms] at hm
    exact hm
  · rw [hms] at hm
    exact hf a s' hm

theorem mono {Good' : α → Extraction → Prop} {Bad' : Error → Extraction → Prop}
    (hm : Leads m s Good Bad) (hg : ∀ a s', Good a s' → Good' a s')
    (hb : ∀ e s', Bad e s' → Bad' e s') : Leads m s Good' Bad' := by
  unfold Leads at hm ⊢
  split at hm
  next h => exact hg _ _ hm
  next h => exact hb _ _ hm

theorem state {I : Extraction → Prop} (hm : Leads m s (fun _ => I) fun _ => I) : I (m s).2 := by
  unfold Leads at hm
  split at hm
  next h => rwa [h]
  next h => rwa [h]

end ExtractM.Leads

namespace Extractor

open ExtractM

/-- A node that is no lambda is settled after its subexpressions were visited in order. -/
theorem visit_eq (x : Extractor) (inLambda : Bool) {e : Expr} (h : ∀ ps b, e ≠ .lambda ps b) :
    x.visit inLambda e = (do
      let parts ← x.visitAll inLambda e.children
      x.settle inLambda e parts) := by
  cases e with
  | lambda ps b => exact absurd rfl (h ps b)
  | _ => simp [visit, visitAll, Expr.children]

/-! ### What every step keeps -/

section Keeps

variable (x : Extractor) {I : Extraction → Prop} {P : SourceId → Prop} {Q : ModelId → Prop}
  {s : Extraction}

/-- A result whose references satisfy their conditions. -/
def KeepsExpr (I : Extraction → Prop) (P : SourceId → Prop) (Q : ModelId → Prop) (e : Expr)
    (s : Extraction) : Prop := e.RefsIn P Q ∧ I s

/-- An extraction fails only because an expression has no value. -/
def KeepsError (I : Extraction → Prop) (e : Error) (s : Extraction) : Prop :=
  (∃ fault, e = .parameterization fault) ∧ I s

variable (hI : ∀ base root binding s, I s → I (parameterFor base root binding s).2)

include hI

theorem parameterFor_keeps {base : String} {root : Expr} {binding : Binding} (hs : I s) :
    KeepsExpr I P Q (parameterFor base root binding s).1 (parameterFor base root binding s).2 := by
  refine ⟨?_, hI base root binding s hs⟩
  unfold parameterFor
  split <;> exact Expr.refsIn_parameter

theorem place_keeps (inLambda literal captured : Bool) {root : Expr} (hroot : root.RefsIn P Q)
    (hs : I s) :
    Leads (x.place inLambda literal root captured) s (KeepsExpr I P Q) (KeepsError I) := by
  simp only [Leads, place]
  by_cases haccessor : (x.contextAccessors && root.usesContext) = true
  · rw [if_pos haccessor]
    exact parameterFor_keeps hI hs
  rw [if_neg haccessor]
  by_cases hparameter : (!literal && x.parameterize && (captured || !inLambda)) = true
  · rw [if_pos hparameter]
    cases s.known.lookup root with
    | some name => exact ⟨Expr.refsIn_parameter, hs⟩
    | none =>
      cases x.interpreter.evaluate root with
      | error cause => exact ⟨⟨_, rfl⟩, hs⟩
      | ok v => exact parameterFor_keeps hI hs
  rw [if_neg hparameter]
  by_cases hconstant : root.isConstant = true
  · rw [if_pos hconstant]
    exact ⟨hroot, hs⟩
  rw [if_neg hconstant]
  cases x.interpreter.evaluate root with
  | error cause => exact ⟨⟨_, rfl⟩, hs⟩
  | ok v => exact ⟨Expr.refsIn_constant, hs⟩

theorem placed_keeps (inLambda literal : Bool) {part : Expr × Mobility}
    (hpart : part.1.RefsIn P Q) (hs : I s) :
    Leads (x.placed inLambda literal part) s (KeepsExpr I P Q) (KeepsError I) := by
  unfold placed
  split
  · exact place_keeps x hI _ _ _ hpart hs
  · exact .pure ⟨hpart, hs⟩

theorem placedAll_keeps (inLambda literal : Bool) {parts : List (Expr × Mobility)}
    (hparts : ∀ part ∈ parts, part.1.RefsIn P Q) (hs : I s) :
    Leads (x.placedAll inLambda literal parts) s
      (fun es s' => es.length = parts.length ∧ (∀ e ∈ es, e.RefsIn P Q) ∧ I s') (KeepsError I) := by
  induction parts generalizing s with
  | nil => exact .pure ⟨rfl, by simp, hs⟩
  | cons part parts ih =>
    rw [List.forall_mem_cons] at hparts
    refine (placed_keeps x hI _ _ hparts.1 hs).bind fun e s₁ h₁ => ?_
    refine (ih hparts.2 h₁.2).bind fun es s₂ h₂ => ?_
    exact .pure ⟨by simp [h₂.1], List.forall_mem_cons.mpr ⟨h₁.1, h₂.2.1⟩, h₂.2.2⟩

theorem settle_keeps (inLambda : Bool) {node : Expr} {parts : List (Expr × Mobility)}
    (hnode : node.RefsIn P Q) (hlen : parts.length = node.children.length)
    (hparts : ∀ part ∈ parts, part.1.RefsIn P Q) (hs : I s) :
    Leads (x.settle inLambda node parts) s (fun part => KeepsExpr I P Q part.1) (KeepsError I) := by
  simp only [settle]
  split
  · refine .pure ⟨hnode.withChildren (by simpa using hlen) ?_, hs⟩
    simpa using hparts
  · refine (placedAll_keeps x hI _ _ hparts hs).bind fun es s₁ h₁ => ?_
    exact .pure ⟨hnode.withChildren (h₁.1.trans hlen) h₁.2.1, h₁.2.2⟩

omit hI in
theorem visitAll_keeps (inLambda : Bool) {es : List Expr} (hes : ∀ e ∈ es, e.RefsIn P Q)
    (hvisit : ∀ e ∈ es, e.RefsIn P Q → ∀ s, I s →
      Leads (x.visit inLambda e) s (fun part => KeepsExpr I P Q part.1) (KeepsError I)) (hs : I s) :
    Leads (x.visitAll inLambda es) s
      (fun parts s' => parts.length = es.length ∧ (∀ part ∈ parts, part.1.RefsIn P Q) ∧ I s')
      (KeepsError I) := by
  induction es generalizing s with
  | nil => exact .pure ⟨rfl, by simp, hs⟩
  | cons e es ih =>
    rw [List.forall_mem_cons] at hes hvisit
    refine (hvisit.1 hes.1 s hs).bind fun part s₁ h₁ => ?_
    refine (ih hes.2 hvisit.2 h₁.2).bind fun parts s₂ h₂ => ?_
    exact .pure ⟨by simp [h₂.1], List.forall_mem_cons.mpr ⟨h₁.1, h₂.2.1⟩, h₂.2.2⟩

theorem visit_keeps (inLambda : Bool) {e : Expr} (he : e.RefsIn P Q) (hs : I s) :
    Leads (x.visit inLambda e) s (fun part => KeepsExpr I P Q part.1) (KeepsError I) := by
  induction e using Expr.byChildren generalizing inLambda s with
  | step e ih =>
    by_cases hlambda : ∃ ps b, e = .lambda ps b
    · obtain ⟨ps, b, rfl⟩ := hlambda
      rw [Expr.refsIn_lambda] at he
      refine (ih b (by simp [Expr.children]) true he hs).bind fun part s₁ h₁ => ?_
      refine (placed_keeps x hI true false h₁.1 h₁.2).bind fun b' s₂ h₂ => ?_
      exact .pure ⟨Expr.refsIn_lambda.mpr h₂.1, h₂.2⟩
    · rw [x.visit_eq inLambda fun ps b h => hlambda ⟨ps, b, h⟩]
      have hchildren := (Expr.refsIn_iff_children.mp he).2
      refine (visitAll_keeps x inLambda hchildren
        (fun c hc hrefs s hs => ih c hc _ hrefs hs) hs).bind
        fun parts s₁ h₁ => ?_
      exact settle_keeps x hI inLambda he h₁.1 h₁.2.1 h₁.2.2

theorem extractRoot_keeps {e : Expr} (he : e.RefsIn P Q) (hs : I s) :
    Leads (x.extractRoot e) s (KeepsExpr I P Q) (KeepsError I) :=
  (visit_keeps x hI false he hs).bind fun _ _ h => placed_keeps x hI false false h.1 h.2

end Keeps

end Extractor

/-! ### Numbers of parameters -/

theorem upsert_of_lookup_none {α β : Type} [DecidableEq α] {k : α} {v : β} {l : List (α × β)}
    (h : l.lookup k = none) : upsert k v l = l ++ [(k, v)] := by
  induction l with
  | nil => rfl
  | cons p l ih =>
    obtain ⟨k', v'⟩ := p
    rw [List.lookup_cons] at h
    split at h
    · cases h
    next hk =>
      have hne : k' ≠ k := fun heq => by simp [heq] at hk
      rw [upsert, if_neg hne, ih h, List.cons_append]

namespace ParameterStore

/-- The name of every parameter ends in its position. -/
def Numbered (store : ParameterStore) : Prop :=
  ∀ (i : Nat) (name : String) (binding : Binding), store[i]? = some (name, binding) →
    ∃ base, name = base ++ "_" ++ toString i

/-- A store that only extractions have added to, in whatever way and to whatever end. -/
inductive Extracted : ParameterStore → Prop where
  | empty : Extracted []
  | extract (x : Extractor) (e : Expr) {store : ParameterStore} (h : Extracted store) :
      Extracted (x.extract e store).2

variable {store : ParameterStore}

theorem Numbered.lookup_parameterName (h : store.Numbered) (base : String) :
    store.lookup (Extractor.parameterName base store) = none := by
  rw [List.lookup_eq_none_iff]
  intro p hp
  obtain ⟨i, hi⟩ := List.mem_iff_getElem?.mp hp
  obtain ⟨base', hname⟩ := h i p.1 p.2 hi
  rw [bne_iff_ne, hname]
  intro heq
  have hlt : i < store.length := (List.getElem?_eq_some_iff.mp hi).1
  have hlast : store.length = i := numbered_inj heq
  omega

theorem Numbered.add (h : store.Numbered) (base : String) (binding : Binding) :
    (store.add (Extractor.parameterName base store) binding).Numbered := by
  rw [ParameterStore.add, upsert_of_lookup_none (h.lookup_parameterName base)]
  intro i name binding' hi
  rw [List.getElem?_append] at hi
  split at hi
  · exact h i name binding' hi
  next hge =>
    obtain ⟨hlast, hp⟩ := List.getElem?_eq_some_iff.mp hi
    have hlen : i = store.length := by
      simp only [List.length_singleton] at hlast
      omega
    subst hlen
    refine ⟨"__" ++ Extractor.cleanName base, ?_⟩
    simpa [Extractor.parameterName] using (congrArg Prod.fst hp).symm

theorem Numbered.parameterFor {s : Extraction} (h : s.store.Numbered) (base : String) (root : Expr)
    (binding : Binding) : (Extractor.parameterFor base root binding s).2.store.Numbered := by
  unfold Extractor.parameterFor
  split
  · exact h
  · exact h.add base binding

theorem Extracted.numbered (h : store.Extracted) : store.Numbered := by
  induction h with
  | empty => simp [Numbered]
  | @extract x e store _ ih =>
    have hkeeps := x.extractRoot_keeps (I := (·.store.Numbered))
      (fun base root binding s hs => hs.parameterFor base root binding) (e := e)
      (Expr.refsIn_iff.mpr ⟨fun _ _ => trivial, fun _ _ => trivial⟩) (s := ⟨store, []⟩) ih
    exact (hkeeps.mono (fun _ _ h => h.2) fun _ _ h => h.2).state

end ParameterStore

end QueryTree
