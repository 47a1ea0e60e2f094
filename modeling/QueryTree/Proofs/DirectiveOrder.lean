import QueryTree.Directive.Extraction
import QueryTree.Proofs.WellFormed

/-! The order in which models give up their directives. The walk over the models reads their
references while it changes them. As directives have no part in references, it meets the models that
a walk over the arena as it was meets, and moves the directives of one after the other. -/

namespace QueryTree

namespace Arena

variable {a b : Arena} {root k d : ModelId} {s r : SourceId} {m : QueryModel} {e : Expr}
  {path : List ModelId}

/-! ### Arenas that differ in directives -/

/-- What scopes depend on in a model. -/
def scopeParts (m : QueryModel) : List SourceId × List Expr := (m.declaredSources, m.expressions)

theorem parts_of_isDirective {op : ResultOperator} (h : op.isDirective = true) :
    op.source? = none ∧ op.expressions = [] := by
  cases op with
  | tracking on => exact ⟨rfl, rfl⟩
  | tag text => exact ⟨rfl, rfl⟩
  | ignoreFilters => exact ⟨rfl, rfl⟩
  | includes source path => exact ⟨rfl, rfl⟩
  | _ => cases h

theorem scopeParts_bare (m : QueryModel) : scopeParts m.bare = scopeParts m := by
  have hparts : ∀ ops : List ResultOperator,
      (ops.filter (!·.isDirective)).filterMap (·.source?) = ops.filterMap (·.source?) ∧
        (ops.filter (!·.isDirective)).flatMap (·.expressions) = ops.flatMap (·.expressions) := by
    intro ops
    induction ops with
    | nil => exact ⟨rfl, rfl⟩
    | cons op ops ih =>
      by_cases hop : op.isDirective = true
      · obtain ⟨hsource, hexpr⟩ := parts_of_isDirective hop
        simpa [hop, hsource, hexpr] using ih
      · simp [hop, List.filterMap_cons, ih]
  obtain ⟨hsource, hexpr⟩ := hparts m.operators
  simp only [scopeParts, QueryModel.declaredSources, QueryModel.expressions,
    QueryModel.bare, hsource, hexpr]

/-- Arenas with the same sources, whose models differ in directives only. -/
structure Alike (a b : Arena) : Prop where
  sources : a.sources = b.sources
  models : a.models.map scopeParts = b.models.map scopeParts

theorem Alike.trans {c : Arena} (hab : a.Alike b) (hbc : b.Alike c) : a.Alike c :=
  ⟨hab.sources.trans hbc.sources, hab.models.trans hbc.models⟩

theorem Alike.symm (h : a.Alike b) : b.Alike a := ⟨h.sources.symm, h.models.symm⟩

theorem Alike.length (h : a.Alike b) : a.models.length = b.models.length := by
  simpa using congrArg List.length h.models

theorem Alike.source? (h : a.Alike b) (s : SourceId) : a.source? s = b.source? s := by
  unfold Arena.source?
  rw [h.sources]

theorem Alike.model? (h : a.Alike b) (k : ModelId) :
    (a.model? k).map scopeParts = (b.model? k).map scopeParts := by
  simpa [Arena.model?] using congrArg (fun models => models[k]?) h.models

theorem Alike.declares (h : a.Alike b) (hd : a.Declares k s) : b.Declares k s := by
  obtain ⟨m, hm, hs⟩ := hd
  have hmap := h.model? k
  rw [hm] at hmap
  obtain ⟨m', hm', hparts⟩ := Option.map_eq_some_iff.mp hmap.symm
  have hdeclared : m'.declaredSources = m.declaredSources := congrArg Prod.fst hparts
  exact ⟨m', hm', hdeclared ▸ hs⟩

theorem Alike.origins (h : a.Alike b) (ids : List SourceId) : a.origins ids = b.origins ids := by
  induction ids with
  | nil => rfl
  | cons id ids ih => simp only [Arena.origins, Arena.source, h.source? id, ih]

theorem Alike.modelExpressions (h : a.Alike b) (k : ModelId) :
    a.modelExpressions k = b.modelExpressions k := by
  have hmap := h.model? k
  cases hm : a.model? k with
  | none =>
    rw [hm] at hmap
    have hm' : b.model? k = none := Option.map_eq_none_iff.mp hmap.symm
    simp [Arena.modelExpressions, Arena.model, hm, hm', bind, Except.bind]
  | some m =>
    rw [hm] at hmap
    obtain ⟨m', hm', hparts⟩ := Option.map_eq_some_iff.mp hmap.symm
    have hdeclared : m'.declaredSources = m.declaredSources := congrArg Prod.fst hparts
    have hexpr : m'.expressions = m.expressions := congrArg Prod.snd hparts
    rw [modelExpressions_of_model? hm, modelExpressions_of_model? hm', hdeclared, hexpr,
      h.origins]

theorem Alike.referencedSubqueries (h : a.Alike b) (k : ModelId) :
    a.referencedSubqueries k = b.referencedSubqueries k := by
  simp only [Arena.referencedSubqueries, h.modelExpressions k]

theorem Alike.path_of (h : a.Alike b) (hp : a.Path root path k) : b.Path root path k := by
  induction hp with
  | start => exact .start
  | step _ hr ih =>
    obtain ⟨ms, hms, hj⟩ := hr
    exact ih.step ⟨ms, (h.referencedSubqueries _).symm.trans hms, hj⟩

theorem Alike.wellFormed (h : a.Alike b) (hw : a.WellFormed root) : b.WellFormed root where
  last := hw.last.trans h.length
  descending := by
    intro k hk
    obtain ⟨ms, hms, hlt⟩ := hw.descending k (h.length ▸ hk)
    exact ⟨ms, (h.referencedSubqueries k).symm.trans hms, hlt⟩
  declared := fun k s hd => h.sources ▸ hw.declared k s (h.symm.declares hd)
  owned := by
    intro s hs
    obtain ⟨k, hk, hunique⟩ := hw.owned s (h.sources ▸ hs)
    exact ⟨k, h.declares hk, fun j hj => hunique j (h.symm.declares hj)⟩
  earlier := fun s src hsrc => hw.earlier s src ((h.source? s).trans hsrc)
  enclosed := by
    rintro k s ⟨path, hp⟩ ⟨es, hes, hmention⟩
    have hmentions : a.Mentions k s := ⟨es, (h.modelExpressions k).trans hes, hmention⟩
    obtain ⟨d, hd, hon⟩ := hw.enclosed k s ⟨path, h.symm.path_of hp⟩ hmentions
    exact ⟨d, h.declares hd, fun path hp => hon path (h.symm.path_of hp)⟩

end Arena

/-! ### Walks -/

namespace Arena

/-- The pending models, each once and after its subqueries; a model marked `true` has its
subqueries done. The walk breaks off at a reference that leads nowhere. -/
def postorderFrom (a : Arena) (pending : List (ModelId × Bool)) (seen : List ModelId) :
    List ModelId × Option Error :=
  match pending with
  | [] => ([], none)
  | (id, true) :: rest =>
    let (ids, error) := a.postorderFrom rest seen
    (id :: ids, error)
  | (id, false) :: rest =>
    if id ∈ seen then a.postorderFrom rest seen
    else
      match _h : a.referencedSubqueries id with
      | .error e => ([], some e)
      | .ok ms => a.postorderFrom (ms.map (·, false) ++ (id, true) :: rest) (id :: seen)
termination_by (unseen a.models.length seen, pending.length)
decreasing_by
  · exact Prod.Lex.right _ (by simp)
  · exact Prod.Lex.right _ (by simp)
  · exact Prod.Lex.left _ _ (unseen_cons_lt (lt_of_referencedSubqueries _h) (by assumption))

/-- The models that `root` reaches, subqueries first. -/
def postorder (a : Arena) (root : ModelId) : List ModelId × Option Error :=
  a.postorderFrom [(root, false)] []

variable {a b : Arena} {root : ModelId} {pending : List (ModelId × Bool)} {seen : List ModelId}

theorem postorderFrom_of_error {id : ModelId} {rest : List (ModelId × Bool)} {error : Error}
    (hid : id ∉ seen) (herror : a.referencedSubqueries id = .error error) :
    a.postorderFrom ((id, false) :: rest) seen = ([], some error) := by
  rw [postorderFrom, if_neg hid]
  split
  next error' herror' => rw [Except.error.inj (herror.symm.trans herror')]
  next ms hms => cases herror.symm.trans hms

theorem postorderFrom_of_ok {id : ModelId} {rest : List (ModelId × Bool)} {ms : List ModelId}
    (hid : id ∉ seen) (hms : a.referencedSubqueries id = .ok ms) :
    a.postorderFrom ((id, false) :: rest) seen =
      a.postorderFrom (ms.map (·, false) ++ (id, true) :: rest) (id :: seen) := by
  rw [postorderFrom, if_neg hid]
  split
  next error herror => cases hms.symm.trans herror
  next ms' hms' => rw [Except.ok.inj (hms.symm.trans hms')]

/-- Directives play no part in the walk, be they there or moved already. -/
theorem Alike.postorderFrom (h : a.Alike b) (pending : List (ModelId × Bool))
    (seen : List ModelId) : a.postorderFrom pending seen = b.postorderFrom pending seen := by
  fun_induction Arena.postorderFrom a pending seen with
  | case1 => simp [Arena.postorderFrom]
  | case2 seen id rest ids error heq ih => simp [Arena.postorderFrom, ← ih, heq]
  | case3 seen id rest hid ih => simp [Arena.postorderFrom, hid, ih]
  | case4 seen id rest hid error herror =>
    rw [h.referencedSubqueries] at herror
    rw [postorderFrom_of_error hid herror]
  | case5 seen id rest hid ms hms ih =>
    rw [h.referencedSubqueries] at hms
    rw [postorderFrom_of_ok hid hms, ih]

/-- The walk over models never breaks off: references lead to earlier models. -/
theorem WellFormed.postorderFrom (h : a.WellFormed root) (pending : List (ModelId × Bool))
    (seen : List ModelId) (hp : ∀ p ∈ pending, p.1 < a.models.length) :
    (a.postorderFrom pending seen).2 = none := by
  fun_induction Arena.postorderFrom a pending seen with
  | case1 => rfl
  | case2 seen id rest ids error heq ih =>
    have hrest := ih fun p hin => hp p (List.mem_cons_of_mem _ hin)
    rwa [heq] at hrest
  | case3 seen id rest hid ih => exact ih fun p hin => hp p (List.mem_cons_of_mem _ hin)
  | case4 seen id rest hid error herr =>
    obtain ⟨ms, hms, _⟩ := h.descending id (hp _ List.mem_cons_self)
    exact nomatch herr.symm.trans hms
  | case5 seen id rest hid ms hms ih =>
    have hlt : id < a.models.length := hp _ List.mem_cons_self
    obtain ⟨ms', hms', hearlier⟩ := h.descending id hlt
    obtain rfl := Except.ok.inj (hms.symm.trans hms')
    refine ih fun p hin => ?_
    rcases List.mem_append.mp hin with hin | hin
    · obtain ⟨j, hj, rfl⟩ := List.mem_map.mp hin
      exact Nat.lt_trans (hearlier j hj) hlt
    · rcases List.mem_cons.mp hin with rfl | hin
      · exact hlt
      · exact hp p (List.mem_cons_of_mem _ hin)

theorem WellFormed.postorder (h : a.WellFormed root) : (a.postorder root).2 = none := by
  apply h.postorderFrom
  intro p hp
  obtain rfl := List.mem_singleton.mp hp
  exact Nat.lt_of_succ_le (Nat.le_of_eq h.last)

end Arena

/-! ### Moved directives -/

namespace AppliedDirective

/-- Moves the directives of one model, if it is there, into the context. -/
def takeFrom (state : Arena × CompilationContext) (id : ModelId) : Arena × CompilationContext :=
  match state.1.model? id with
  | none => state
  | some m => (state.1.setModel id m.bare, (m.directives id).foldl .add state.2)

end AppliedDirective

namespace Arena

theorem alike_takeFrom (state : Arena × CompilationContext) (id : ModelId) :
    state.1.Alike (AppliedDirective.takeFrom state id).1 := by
  unfold AppliedDirective.takeFrom
  split
  · exact ⟨rfl, rfl⟩
  next m hm =>
    refine ⟨rfl, ?_⟩
    obtain ⟨hid, hget⟩ := List.getElem?_eq_some_iff.mp hm
    have hsame : (state.1.models.map scopeParts).set id (scopeParts m) =
        state.1.models.map scopeParts := by
      rw [← hget, ← List.getElem_map scopeParts (h := by simpa using hid), List.set_getElem_self]
    simp only [setModel, List.map_set, scopeParts_bare, hsame]

theorem alike_foldl_takeFrom (ids : List ModelId) (state : Arena × CompilationContext) :
    state.1.Alike (ids.foldl AppliedDirective.takeFrom state).1 := by
  induction ids generalizing state with
  | nil => exact ⟨rfl, rfl⟩
  | cons id ids ih => exact (alike_takeFrom state id).trans (ih _)

end Arena

namespace AppliedDirective

variable {state : Arena × CompilationContext} {id : ModelId} {m : QueryModel}

theorem takeFrom_of_model (h : state.1.model id = .ok m) :
    takeFrom state id = (state.1.setModel id m.bare, (m.directives id).foldl .add state.2) := by
  unfold Arena.model at h
  unfold takeFrom
  cases hm : state.1.model? id with
  | none =>
    rw [hm] at h
    cases h
  | some m' =>
    rw [hm] at h
    obtain rfl := Except.ok.inj h
    rfl

/-- The directives are moved as if the walk had been made before. -/
theorem extractFrom_eq (pending : List (ModelId × Bool)) (seen : List ModelId)
    (state : Arena × CompilationContext)
    (hopen : ∀ k, (k, true) ∈ pending → k < state.1.models.length) :
    extractFrom pending seen state =
      ((state.1.postorderFrom pending seen).2.elim (.ok ()) .error,
        (state.1.postorderFrom pending seen).1.foldl takeFrom state) := by
  fun_induction extractFrom pending seen state with
  | case1 seen state => simp [Arena.postorderFrom]
  | case2 seen state id rest error herror =>
    obtain ⟨m, hm⟩ := Arena.model?_of_lt (hopen id List.mem_cons_self)
    simp [Arena.model, hm] at herror
  | case3 seen state id rest m hm ih =>
    -- what is left is walked over in the arena with the directives of the model gone
    have halike := Arena.alike_takeFrom state id
    rw [takeFrom_of_model hm] at halike
    rw [ih fun k hk => halike.length ▸ hopen k (List.mem_cons_of_mem _ hk), ← halike.postorderFrom,
      Arena.postorderFrom, ← takeFrom_of_model hm]
    rfl
  | case4 seen state id rest hid ih =>
    rw [ih fun k hk => hopen k (List.mem_cons_of_mem _ hk), Arena.postorderFrom, if_pos hid]
  | case5 seen state id rest hid error herror =>
    rw [Arena.postorderFrom_of_error hid herror]
    rfl
  | case6 seen state id rest hid ms hms ih =>
    rw [Arena.postorderFrom_of_ok hid hms]
    apply ih
    intro k hk
    rcases List.mem_append.mp hk with hk | hk
    · simp at hk
    · rcases List.mem_cons.mp hk with heq | hk
      · rw [(Prod.mk.inj heq).1]
        exact Arena.lt_of_referencedSubqueries hms
      · exact hopen k (List.mem_cons_of_mem _ hk)

theorem extract_eq (root : ModelId) (state : Arena × CompilationContext) :
    extract root state = ((state.1.postorder root).2.elim (.ok ()) .error,
      (state.1.postorder root).1.foldl takeFrom state) :=
  extractFrom_eq _ _ _ (by simp)

end AppliedDirective

end QueryTree
