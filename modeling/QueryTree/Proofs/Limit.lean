import QueryTree.Model.Construction
import QueryTree.Proofs.Normalization

/-! Limits cut constructions off and do nothing else: what ends within a limit, with a result or
with an error of its own, ends alike within every larger limit. -/

namespace QueryTree

/-- `y` does the same as `x`, unless `x` runs into its limit. -/
def Deepens {α : Type} (x y : Except Error α) : Prop := x = .error .limitExceeded ∨ x = y

theorem Deepens.refl {α : Type} (x : Except Error α) : Deepens x x := .inr rfl

theorem Deepens.bind {α β : Type} {x y : Except Error α} {f g : α → Except Error β}
    (hx : Deepens x y) (hf : ∀ a, Deepens (f a) (g a)) : Deepens (x >>= f) (y >>= g) := by
  rcases hx with rfl | rfl
  · exact .inl rfl
  · cases x with
    | ok a => exact hf a
    | error e => exact .refl _

theorem Deepens.map {α β : Type} {x y : Except Error α} (h : Deepens x y) (f : α → β) :
    Deepens (x.map f) (y.map f) := by
  rcases h with rfl | rfl
  · exact .inl rfl
  · exact .refl _

namespace Pass

theorem normalize_deepens {limit larger : Nat} (hle : limit ≤ larger) (e : Expr) :
    Deepens ((normalize limit).run e) ((normalize larger).run e) := by
  have hkeeps := normalize_keepsRefs limit (fun _ => True) (fun _ => True) e
    (Expr.refsIn_iff.mpr ⟨fun _ _ => trivial, fun _ _ => trivial⟩)
  cases hrun : (normalize limit).run e with
  | ok e' => exact .inr (normalize_finishes hle e e' hrun).symm
  | error error =>
    rw [hrun] at hkeeps
    exact .inl (congrArg _ hkeeps)

end Pass

namespace Construction

/-- The same for steps of a construction, from every state. -/
def StepDeepens {α : Type} (x y : BuildM α) : Prop := ∀ c, Deepens (x c) (y c)

theorem StepDeepens.refl {α : Type} (x : BuildM α) : StepDeepens x x := fun _ => .refl _

theorem StepDeepens.bind {α β : Type} {x y : BuildM α} {f g : α → BuildM β}
    (hx : StepDeepens x y) (hf : ∀ a, StepDeepens (f a) (g a)) :
    StepDeepens (x >>= f) (y >>= g) :=
  fun c => (hx c).bind fun r => hf r.1 r.2

theorem StepDeepens.after {α β : Type} (x : BuildM α) {f g : α → BuildM β}
    (hf : ∀ a, StepDeepens (f a) (g a)) : StepDeepens (x >>= f) (x >>= g) :=
  (StepDeepens.refl x).bind hf

theorem StepDeepens.before {α β : Type} {x y : BuildM α} (hx : StepDeepens x y)
    (f : α → BuildM β) : StepDeepens (x >>= f) (y >>= f) :=
  hx.bind fun a => .refl (f a)

section Operators

variable {process process' : Expr → BuildM Expr}
  (hp : ∀ e, StepDeepens (process e) (process' e))

include hp

theorem resolve_deepens (m : QueryModel) (lambda : Lambda) :
    StepDeepens (resolve process m lambda) (resolve process' m lambda) :=
  .after _ fun _ => hp _

theorem filter_deepens (m : QueryModel) (method : Method) (e : Expr) :
    StepDeepens (filter process m method e) (filter process' m method e) :=
  .after _ fun lambda => .after _ fun m => (resolve_deepens hp m lambda).before _

theorem filterIf_deepens (m : QueryModel) (method : Method) (o : Option Expr) :
    StepDeepens (filterIf process m method o) (filterIf process' m method o) := by
  cases o with
  | none => exact .refl _
  | some e => exact filter_deepens hp m method e

theorem select_deepens (m : QueryModel) (method : Method) (e : Expr) :
    StepDeepens (select process m method e) (select process' m method e) :=
  .after _ fun lambda => .after _ fun m => (resolve_deepens hp m lambda).before _

theorem selectIf_deepens (m : QueryModel) (method : Method) (o : Option Expr) :
    StepDeepens (selectIf process m method o) (selectIf process' m method o) := by
  cases o with
  | none => exact .refl _
  | some e => exact select_deepens hp m method e

theorem selectMany_deepens (m : QueryModel) (method : Method) (e : Expr) (o : Option Expr) :
    StepDeepens (selectMany process m method e o) (selectMany process' m method e o) := by
  refine .after _ fun collection => .after _ fun result => .after _ fun m => ?_
  refine (resolve_deepens hp m collection).bind fun origin => ?_
  cases result with
  | none => exact .refl _
  | some result => exact .after _ fun source => .after _ fun _ => (hp _).before _

theorem selectManyArgs_deepens (m : QueryModel) (method : Method) (args : List Expr) :
    StepDeepens (selectManyArgs process m method args) (selectManyArgs process' m method args) := by
  unfold selectManyArgs
  split
  · exact selectMany_deepens hp m method _ _
  · exact selectMany_deepens hp m method _ _
  · exact .refl _

theorem join_deepens (grouped : Bool) (m : QueryModel) (method : Method) (args : List Expr) :
    StepDeepens (join process grouped m method args) (join process' grouped m method args) := by
  unfold join
  split
  next inner outerKey innerKey result =>
    refine .after _ fun outerKey => .after _ fun innerKey => .after _ fun result => ?_
    refine .after _ fun m => (hp _).bind fun origin => .after _ fun source => ?_
    refine (resolve_deepens hp m outerKey).bind fun outer => ?_
    exact (hp _).bind fun inner => (hp _).before _
  next => exact .refl _

theorem orderBy_deepens (descending : Bool) (m : QueryModel) (method : Method) (e : Expr) :
    StepDeepens (orderBy process descending m method e)
      (orderBy process' descending m method e) :=
  .after _ fun lambda => .after _ fun m => (resolve_deepens hp m lambda).before _

theorem thenBy_deepens (descending : Bool) (m : QueryModel) (method : Method) (e : Expr) :
    StepDeepens (thenBy process descending m method e) (thenBy process' descending m method e) := by
  refine .after _ fun lambda => ?_
  split
  · exact (resolve_deepens hp m lambda).before _
  · exact .refl _

theorem groupBy_deepens (m : QueryModel) (method : Method) (e : Expr) (o : Option Expr) :
    StepDeepens (groupBy process m method e o) (groupBy process' m method e o) := by
  refine .after _ fun key => .after _ fun element => .after _ fun m => ?_
  refine (resolve_deepens hp m key).bind fun key => ?_
  cases element with
  | none => exact .refl _
  | some element => exact (resolve_deepens hp m element).before _

theorem groupByArgs_deepens (m : QueryModel) (method : Method) (args : List Expr) :
    StepDeepens (groupByArgs process m method args) (groupByArgs process' m method args) := by
  unfold groupByArgs
  split
  · exact groupBy_deepens hp m method _ _
  · exact groupBy_deepens hp m method _ _
  · exact .refl _

theorem customArgs_deepens (m : QueryModel) (args : List Expr) :
    StepDeepens (customArgs process m args) (customArgs process' m args) := by
  induction args with
  | nil => exact .refl _
  | cons arg args ih =>
    unfold customArgs
    split
    · exact (resolve_deepens hp m _).bind fun e => ih.before _
    · exact (hp _).bind fun e => ih.before _

theorem apply_deepens (m : QueryModel) (call : OperatorCall) :
    StepDeepens (apply process m call) (apply process' m call) := by
  unfold apply
  cases call.kind with
  | filter => exact .after _ fun e => filter_deepens hp m _ e
  | select => exact .after _ fun e => select_deepens hp m _ e
  | selectMany => exact selectManyArgs_deepens hp m _ _
  | join grouped => exact join_deepens hp grouped m _ _
  | orderBy descending => exact .after _ fun e => orderBy_deepens hp descending m _ e
  | thenBy descending => exact .after _ fun e => thenBy_deepens hp descending m _ e
  | groupBy => exact groupByArgs_deepens hp m _ _
  | take | skip | contains | combine _ => exact .after _ fun e => (hp e).before _
  | element _ _ | count _ | any => exact .after _ fun o => (filterIf_deepens hp m _ o).before _
  | all =>
    exact .after _ fun e => .after _ fun lambda => .after _ fun m =>
      (resolve_deepens hp m lambda).before _
  | aggregate _ => exact .after _ fun o => (selectIf_deepens hp m _ o).before _
  | defaultIfEmpty =>
    refine .after _ fun o => ?_
    cases o with
    | none => exact .refl _
    | some e => exact (hp e).before _
  | custom _ => exact (customArgs_deepens hp m _).before _
  | _ => exact .refl _

theorem applyAll_deepens (m : QueryModel) (calls : List OperatorCall) :
    StepDeepens (applyAll process m calls) (applyAll process' m calls) := by
  induction calls generalizing m with
  | nil => exact .refl _
  | cons call calls ih => exact (apply_deepens hp m call).bind ih

theorem start_deepens (root : Expr) : StepDeepens (start process root) (start process' root) := by
  unfold start
  split
  · exact .refl _
  · split
    · exact .refl _
    · exact (hp _).before _
  · exact (hp _).before _

end Operators

section Chains

variable {build build' : Expr → BuildM QueryModel}

theorem liftChainsAll_deepens (r : Registry) (es : List Expr)
    (h : ∀ e ∈ es, StepDeepens (liftChains r build e) (liftChains r build' e)) :
    StepDeepens (liftChainsAll r build es) (liftChainsAll r build' es) := by
  induction es with
  | nil => exact .refl _
  | cons e es ih =>
    rw [List.forall_mem_cons] at h
    exact h.1.bind fun e' => (ih h.2).before _

theorem liftChains_deepens (r : Registry) (hb : ∀ e, StepDeepens (build e) (build' e)) (e : Expr) :
    StepDeepens (liftChains r build e) (liftChains r build' e) := by
  induction e using Expr.byChildren with
  | step e ih =>
    cases hkind : r.kind? e.strip with
    | some kind =>
      rw [liftChains_of_kind? _ _ hkind, liftChains_of_kind? _ _ hkind]
      exact (hb e).before _
    | none =>
      rw [liftChains_eq _ _ hkind, liftChains_eq _ _ hkind]
      exact (liftChainsAll_deepens r e.children ih).before _

end Chains

end Construction

namespace Builder

open Construction

variable {registry : Registry} {passes passes' : List Pass}
  (hpasses : ∀ e, Deepens (Pass.runAll passes e) (Pass.runAll passes' e))

include hpasses

theorem process_deepens {build build' : Expr → BuildM QueryModel}
    (hb : ∀ e, StepDeepens (build e) (build' e)) (e : Expr) :
    StepDeepens (process ⟨registry, passes⟩ build e) (process ⟨registry, passes'⟩ build' e) := by
  refine (liftChains_deepens registry hb e).bind fun e' c => ?_
  rcases hpasses e' with hrun | hrun
  · rw [hrun]
    exact .inl rfl
  · rw [hrun]
    exact .refl _

theorem assemble_deepens {build build' : Expr → BuildM QueryModel}
    (hb : ∀ e, StepDeepens (build e) (build' e)) (e : Expr) :
    StepDeepens (assemble ⟨registry, passes⟩ build e) (assemble ⟨registry, passes'⟩ build' e) :=
  (start_deepens (process_deepens hpasses hb) _).bind fun m =>
    applyAll_deepens (process_deepens hpasses hb) m _

theorem buildChain_deepens {limit larger : Nat} (hle : limit ≤ larger) (e : Expr) :
    StepDeepens (buildChain ⟨registry, passes⟩ limit e)
      (buildChain ⟨registry, passes'⟩ larger e) := by
  induction limit generalizing larger e with
  | zero =>
    have hcut :
        ∀ (build : Expr → BuildM QueryModel) e, StepDeepens (throw .limitExceeded) (build e) :=
      fun _ _ _ => .inl rfl
    cases larger with
    | zero => exact assemble_deepens hpasses (fun _ => .refl _) e
    | succ larger => exact assemble_deepens hpasses (hcut _) e
  | succ limit ih =>
    obtain ⟨larger, rfl⟩ : ∃ n, larger = n + 1 := ⟨larger - 1, by omega⟩
    exact assemble_deepens hpasses (fun e => ih (Nat.le_of_succ_le_succ hle) e) e

theorem build_deepens {limit larger : Nat} (hle : limit ≤ larger) (e : Expr) :
    Deepens (build ⟨registry, passes⟩ limit e) (build ⟨registry, passes'⟩ larger e) :=
  (buildChain_deepens hpasses hle e ⟨.empty, []⟩).bind fun _ => .refl _

end Builder

end QueryTree
