import Mathlib.Data.List.Induction
import Mathlib.Data.List.Nodup
import Mathlib.Data.List.Perm.Basic
import QueryTree.Proofs.IncludeBinding

/-! Include plans are well formed. A plan grows by one step at a time, and a step is added only
behind the steps for the references that its path passes through. Slots number the references of a
plan, and loads the collections of all plans; a plan in the making is checked together with the
loads that the other plans have taken. -/

namespace QueryTree

/-! ### Well-formed plans -/

namespace IncludeStep

def slot? : IncludeStep → Option Nat
  | reference _ _ slot => some slot
  | _ => none

def load? : IncludeStep → Option Nat
  | collection _ _ load => some load
  | _ => none

/-- A step attaches what its path leads to, a single entity or a collection. -/
def Fits (a : Arena) (find : EntityLookup) (s : SourceId) : IncludeStep → Prop
  | startTracking => True
  | reference path n _ => Include.EndsIn a find s path n ∧ n.isCollection = false
  | collection path n _ => Include.EndsIn a find s path n ∧ n.isCollection = true

end IncludeStep

def IncludePlan.loads (p : IncludePlan) : List Nat := p.steps.filterMap (·.load?)

/-- The references that a path passes through have steps. -/
def IncludeStep.PassesThrough (steps : List IncludeStep) (path : List String) : Prop :=
  ∀ q, q ≠ [] → q <+: path → q ≠ path → ∃ n slot, .reference q n slot ∈ steps

/-- The steps of a plan are in order: tracking comes first, if entities are tracked; no path has
two steps; a path is preceded by the references it passes through; references are numbered as they
come. -/
structure IncludePlan.WellFormed (a : Arena) (find : EntityLookup) (tracking : Bool)
    (p : IncludePlan) : Prop where
  tracked : p.steps.head? = some .startTracking ↔ tracking = true
  tracked_once : .startTracking ∉ p.steps.tail
  distinct : (p.steps.map (·.path)).Nodup
  preceded : ∀ earlier step later, p.steps = earlier ++ step :: later →
    IncludeStep.PassesThrough earlier step.path
  slots : p.steps.filterMap (·.slot?) = List.range p.referenceCount
  fits : ∀ step ∈ p.steps, step.Fits a find p.source

/-- A load is what a step with this path and navigation asks for. -/
structure CollectionLoad.Serves (a : Arena) (find : EntityLookup) (tracking : Bool) (s : SourceId)
    (path : List String) (n : Navigation) (load : CollectionLoad) : Prop where
  source : load.source = s
  first : Include.EndsIn a find s (path.take 1) load.first
  last : load.last = n
  tracking : load.tracking = tracking

/-- The collections that a plan asks for are among the loads, under the numbers of its steps. -/
def IncludePlan.Served (a : Arena) (find : EntityLookup) (tracking : Bool)
    (loads : List CollectionLoad) (p : IncludePlan) : Prop :=
  ∀ path n id, .collection path n id ∈ p.steps →
    ∃ load, loads[id]? = some load ∧ load.Serves a find tracking p.source path n

/-- Every collection step has a load of its own, and every load a step. -/
structure CompiledIncludes.WellFormed (a : Arena) (find : EntityLookup) (tracking : Bool)
    (c : CompiledIncludes) : Prop where
  sources : (c.plans.map (·.source)).Nodup
  plans : ∀ p ∈ c.plans, p.WellFormed a find tracking
  ids : c.collections.map (·.id) = List.range c.collections.length
  loads : (c.plans.flatMap (·.loads)).Perm (List.range c.collections.length)
  served : ∀ p ∈ c.plans, p.Served a find tracking c.collections

namespace Include

variable {a : Arena} {find : EntityLookup} {tracking : Bool} {p : IncludePlan} {b : BoundInclude}
  {step : IncludeStep} {path front q : List String} {n : Navigation} {ns passed : List Navigation}

/-! ### Steps -/

theorem passesThrough_singleton (steps : List IncludeStep) (name : String) :
    IncludeStep.PassesThrough steps [name] := by
  intro q hq hpart hne
  obtain hname | hpart := List.prefix_concat_iff.mp (show q <+: [] ++ [name] from hpart)
  · exact absurd hname hne
  · exact absurd (List.prefix_nil.mp hpart) hq

theorem passesThrough_concat {steps : List IncludeStep}
    (h : IncludeStep.PassesThrough steps path) (hpath : ∃ n slot, .reference path n slot ∈ steps)
    (name : String) : IncludeStep.PassesThrough steps (path ++ [name]) := by
  intro q hq hpart hne
  obtain hname | hpart := List.prefix_concat_iff.mp hpart
  · exact absurd hname hne
  · by_cases heq : q = path
    · rw [heq]
      exact hpath
    · exact h q hq hpart heq

theorem passesThrough_mono {steps steps' : List IncludeStep}
    (h : IncludeStep.PassesThrough steps path) (hsteps : steps <+: steps') :
    IncludeStep.PassesThrough steps' path := by
  intro q hq hpart hne
  obtain ⟨n, slot, hstep⟩ := h q hq hpart hne
  exact ⟨n, slot, hsteps.subset hstep⟩

/-- A step for a new path keeps a plan in order if the references that the path passes through are
there, and a reference takes the next slot. -/
theorem wellFormed_concat (h : p.WellFormed a find tracking) (hfits : step.Fits a find p.source)
    (htrack : step ≠ .startTracking) (hpath : step.path ∉ p.steps.map (·.path))
    (hpreceded : IncludeStep.PassesThrough p.steps step.path)
    (hslot : ∀ slot, step.slot? = some slot → slot = p.referenceCount) :
    IncludePlan.WellFormed a find tracking { p with steps := p.steps ++ [step] } where
  tracked := by
    rw [← h.tracked]
    cases p.steps with
    | nil => simp [htrack]
    | cons first rest => rfl
  tracked_once := by
    have honce := h.tracked_once
    cases hsteps : p.steps with
    | nil => simp
    | cons first rest =>
      rw [hsteps] at honce
      simpa using ⟨honce, htrack.symm⟩
  distinct := by
    rw [List.map_append, List.map_singleton]
    exact List.nodup_append.mpr ⟨h.distinct, by simp, by
      intro x hx y hy heq
      obtain rfl := List.mem_singleton.mp hy
      exact hpath (heq ▸ hx)⟩
  preceded := by
    intro earlier last later hsplit
    rcases List.eq_nil_or_concat later with rfl | ⟨later, final, rfl⟩
    · obtain ⟨rfl, hlast⟩ := List.append_inj' hsplit rfl
      obtain rfl := (List.cons.inj hlast).1
      exact hpreceded
    · rw [List.concat_eq_append, ← List.cons_append, ← List.append_assoc] at hsplit
      exact h.preceded earlier last later (List.append_inj' hsplit rfl).1
  slots := by
    rw [List.filterMap_append, h.slots]
    cases step with
    | startTracking => exact absurd rfl htrack
    | reference path n slot =>
      obtain rfl := hslot slot rfl
      simp [IncludeStep.slot?, IncludePlan.referenceCount, IncludeStep.isReference, List.range_succ]
    | collection path n id =>
      simp [IncludeStep.slot?, IncludePlan.referenceCount, IncludeStep.isReference]
  fits := by
    intro step' hstep
    rcases List.mem_append.mp hstep with hstep | hstep
    · exact h.fits step' hstep
    · obtain rfl := List.mem_singleton.mp hstep
      exact hfits

theorem exists_reference (h : p.WellFormed a find tracking) (hq : EndsIn a find p.source q n)
    (hn : n.isCollection = false) (hmem : q ∈ p.steps.map (·.path)) :
    ∃ n slot, .reference q n slot ∈ p.steps := by
  obtain ⟨step, hstep, rfl⟩ := List.mem_map.mp hmem
  have hfits := h.fits step hstep
  cases step with
  | startTracking => exact absurd rfl hq.ne_nil
  | reference path n slot => exact ⟨n, slot, hstep⟩
  | collection path m id =>
    have hm : m.isCollection = true := hfits.2
    rw [hfits.1.unique hq, hn] at hm
    cases hm

theorem Served.mono {loads loads' : List CollectionLoad} (h : p.Served a find tracking loads)
    (hloads : loads <+: loads') : p.Served a find tracking loads' := by
  intro path n id hstep
  obtain ⟨load, hload, hserves⟩ := h path n id hstep
  obtain ⟨more, rfl⟩ := hloads
  exact ⟨load, by rw [List.getElem?_append_left (List.getElem?_eq_some_iff.mp hload).1, hload],
    hserves⟩

/-- A plan in the making. `others` are the loads of the other plans. -/
structure Drafted (a : Arena) (find : EntityLookup) (tracking : Bool) (others : List Nat)
    (draft : Draft) : Prop where
  plan : draft.1.WellFormed a find tracking
  ids : draft.2.map (·.id) = List.range draft.2.length
  loads : (draft.1.loads ++ others).Perm (List.range draft.2.length)
  served : draft.1.Served a find tracking draft.2

/-- A draft only grows. -/
structure Extends (draft draft' : Draft) : Prop where
  source : draft'.1.source = draft.1.source
  steps : draft.1.steps <+: draft'.1.steps
  loads : draft.2 <+: draft'.2

theorem Extends.refl (draft : Draft) : Extends draft draft :=
  ⟨rfl, List.prefix_rfl, List.prefix_rfl⟩

theorem Extends.trans {d d' d'' : Draft} (h : Extends d d') (h' : Extends d' d'') : Extends d d'' :=
  ⟨h'.source.trans h.source, h.steps.trans h'.steps, h.loads.trans h'.loads⟩

theorem addStep_cases (tracking : Bool) (b : BoundInclude) (path : List String) (n : Navigation)
    (plan : IncludePlan) (loads : List CollectionLoad) :
    (path ∈ plan.steps.map (·.path) ∧
      addStep tracking b path n (plan, loads) = (plan, loads)) ∨
    (path ∉ plan.steps.map (·.path) ∧ n.isCollection = true ∧
      addStep tracking b path n (plan, loads) =
        ({ plan with steps := plan.steps ++ [.collection path n loads.length] },
          loads ++ [⟨loads.length, tracking, b.navigations.headD n, n, b.source⟩])) ∨
    (path ∉ plan.steps.map (·.path) ∧ n.isCollection = false ∧
      addStep tracking b path n (plan, loads) =
        ({ plan with steps := plan.steps ++ [.reference path n plan.referenceCount] }, loads)) := by
  have hany : plan.steps.any (·.path == path) = true ↔ path ∈ plan.steps.map (·.path) := by
    simp
  by_cases hmem : path ∈ plan.steps.map (·.path)
  · exact .inl ⟨hmem, if_pos (hany.mpr hmem)⟩
  · have hadd : addStep tracking b path n (plan, loads) = _ := if_neg (mt hany.mp hmem)
    rw [hadd]
    cases hn : n.isCollection with
    | true => exact .inr (.inl ⟨hmem, rfl, rfl⟩)
    | false => exact .inr (.inr ⟨hmem, rfl, rfl⟩)

theorem addStep_extends (tracking : Bool) (b : BoundInclude) (path : List String) (n : Navigation)
    (draft : Draft) : Extends draft (addStep tracking b path n draft) := by
  obtain ⟨plan, loads⟩ := draft
  rcases addStep_cases tracking b path n plan loads with ⟨-, h⟩ | ⟨-, -, h⟩ | ⟨-, -, h⟩
  · rw [h]
    exact .refl _
  · rw [h]
    exact ⟨rfl, List.prefix_append _ _, List.prefix_append _ _⟩
  · rw [h]
    exact ⟨rfl, List.prefix_append _ _, List.prefix_rfl⟩

theorem mem_addStep_paths (tracking : Bool) (b : BoundInclude) (n : Navigation) (draft : Draft) :
    q ∈ (addStep tracking b path n draft).1.steps.map (·.path) ↔
      q ∈ draft.1.steps.map (·.path) ∨ q = path := by
  obtain ⟨plan, loads⟩ := draft
  rcases addStep_cases tracking b path n plan loads with ⟨hmem, h⟩ | ⟨-, -, h⟩ | ⟨-, -, h⟩
  · rw [h]
    constructor
    · exact .inl
    · intro hq
      obtain hq | rfl := hq
      · exact hq
      · exact hmem
  · rw [h]
    simp [IncludeStep.path]
  · rw [h]
    simp [IncludeStep.path]

theorem addStep_drafted {others : List Nat} {draft : Draft}
    (h : Drafted a find tracking others draft) (hsource : b.source = draft.1.source)
    (hn : EndsIn a find draft.1.source path n)
    (hfirst : EndsIn a find draft.1.source (path.take 1) (b.navigations.headD n))
    (hpreceded : IncludeStep.PassesThrough draft.1.steps path) :
    Drafted a find tracking others (addStep tracking b path n draft) := by
  obtain ⟨plan, loads⟩ := draft
  obtain ⟨hplan, hids, hloads, hserved⟩ := h
  rcases addStep_cases tracking b path n plan loads with
    ⟨-, hadd⟩ | ⟨hmem, hcollection, hadd⟩ | ⟨hmem, hcollection, hadd⟩
  · rw [hadd]
    exact ⟨hplan, hids, hloads, hserved⟩
  · rw [hadd]
    constructor
    · have hfits : IncludeStep.Fits a find plan.source (.collection path n loads.length) :=
        ⟨hn, hcollection⟩
      apply wellFormed_concat hplan hfits (by simp) hmem hpreceded
      intro slot hslot
      cases hslot
    · simp [hids, List.range_succ]
    · -- the new load has the number behind all that are taken
      have hlast : (plan.loads ++ [loads.length] ++ others).Perm
          (List.range loads.length ++ [loads.length]) := by
        rw [List.append_assoc]
        exact (List.perm_append_comm.append_left plan.loads).trans
          (by simpa [List.append_assoc] using hloads.append_right [loads.length])
      simpa [IncludePlan.loads, IncludeStep.load?, List.range_succ] using hlast
    · intro path' m id hstep
      rcases List.mem_append.mp hstep with hstep | hstep
      · exact Served.mono hserved (List.prefix_append _ _) path' m id hstep
      · obtain ⟨rfl, rfl, rfl⟩ := IncludeStep.collection.inj (List.mem_singleton.mp hstep)
        exact ⟨_, List.getElem?_concat_length, hsource, hfirst, rfl, rfl⟩
  · rw [hadd]
    constructor
    · have hfits : IncludeStep.Fits a find plan.source (.reference path n plan.referenceCount) :=
        ⟨hn, hcollection⟩
      apply wellFormed_concat hplan hfits (by simp) hmem hpreceded
      intro slot hslot
      exact (Option.some.inj hslot).symm
    · exact hids
    · simpa [IncludePlan.loads, IncludeStep.load?] using hloads
    · intro path' m id hstep
      rcases List.mem_append.mp hstep with hstep | hstep
      · exact hserved path' m id hstep
      · cases List.mem_singleton.mp hstep

/-! ### Paths -/

theorem addSteps_extends (tracking : Bool) (b : BoundInclude) (front : List String)
    (rest : List Navigation) (draft : Draft) :
    Extends draft (addSteps tracking b front rest draft) := by
  induction rest generalizing front draft with
  | nil => exact .refl draft
  | cons n rest ih => exact (addStep_extends tracking b _ n draft).trans (ih _ _)

/-- Adding the steps along a path keeps a draft well formed. The path up to the next navigation
passes through references that have steps. -/
theorem addSteps_drafted {others : List Nat} {rest : List Navigation} {draft : Draft}
    (h : Drafted a find tracking others draft) (hsource : b.source = draft.1.source)
    (hbinds : Binds a find b.source path b.navigations) (hsplit : b.navigations = passed ++ rest)
    (hreferences : ∀ n ∈ b.navigations.dropLast, n.isCollection = false)
    (hnext : ∀ n ns, rest = n :: ns →
      IncludeStep.PassesThrough draft.1.steps ((passed ++ [n]).map (·.name))) :
    Drafted a find tracking others (addSteps tracking b (passed.map (·.name)) rest draft) := by
  induction rest generalizing passed draft with
  | nil => exact h
  | cons n rest ih =>
    have hpath : (passed ++ [n]).map (·.name) = passed.map (·.name) ++ [n.name] := by simp
    have hfront : Binds a find draft.1.source ((passed ++ [n]).map (·.name)) (passed ++ [n]) := by
      rw [hsplit, List.append_cons] at hbinds
      exact hsource ▸ hbinds.front (by simp)
    have hfirst : b.navigations.headD n = (passed ++ [n]).headD n := by
      rw [hsplit]
      cases passed <;> rfl
    have hthrough := hnext n rest rfl
    have hgrows := addStep_extends tracking b ((passed ++ [n]).map (·.name)) n draft
    have hdrafted : Drafted a find tracking others
        (addStep tracking b ((passed ++ [n]).map (·.name)) n draft) :=
      addStep_drafted h hsource ⟨passed, hfront⟩ (hfirst ▸ hfront.first n) hthrough
    rw [addSteps, ← hpath]
    apply ih hdrafted (hsource.trans hgrows.source.symm) (hsplit.trans (List.append_cons ..))
    -- only the last navigation may be a collection, so this one is a reference
    intro m ms hrest
    have hn : n.isCollection = false := by
      apply hreferences
      rw [hsplit, hrest, List.dropLast_append_of_ne_nil (by simp)]
      simp
    have hreference := exists_reference hdrafted.plan ⟨passed, hgrows.source ▸ hfront⟩ hn
      ((mem_addStep_paths tracking b n draft).mpr (.inr rfl))
    rw [show (passed ++ [n] ++ [m]).map (·.name) = (passed ++ [n]).map (·.name) ++ [m.name] by simp]
    exact passesThrough_concat (passesThrough_mono hthrough hgrows.steps) hreference m.name

/-! ### Plans -/

/-- A plan stands apart from those of other sources, and can be put into its place. -/
theorem split_planFor? {c : CompiledIncludes} (h : (c.plans.map (·.source)).Nodup) (s : SourceId) :
    ∃ front back, c.plans = front ++ (c.planFor? s).toList ++ back ∧
      (∀ p ∈ front ++ back, p.source ≠ s) ∧
      ∀ plan, plan.source = s → setPlan plan c.plans = front ++ plan :: back := by
  obtain ⟨plans, loads⟩ := c
  show ∃ front back, plans = front ++ (plans.find? (·.source == s)).toList ++ back ∧
      (∀ p ∈ front ++ back, p.source ≠ s) ∧
      ∀ plan, plan.source = s → setPlan plan plans = front ++ plan :: back
  replace h : (plans.map (·.source)).Nodup := h
  induction plans with
  | nil => exact ⟨[], [], rfl, by simp, fun plan _ => rfl⟩
  | cons p ps ih =>
    rw [List.map_cons, List.nodup_cons] at h
    by_cases hp : p.source = s
    · refine ⟨[], ps, by simp [hp], ?_, fun plan hplan => ?_⟩
      · intro q hq hsource
        exact h.1 (List.mem_map.mpr ⟨q, hq, hsource.trans hp.symm⟩)
      · rw [setPlan, if_pos (hp.trans hplan.symm)]
        rfl
    · obtain ⟨front, back, hplans, hothers, hset⟩ := ih h.2
      have hfind : (p :: ps).find? (·.source == s) = ps.find? (·.source == s) := by simp [hp]
      refine ⟨p :: front, back, ?_, ?_, fun plan hplan => ?_⟩
      · rw [hfind, List.cons_append, List.cons_append, ← hplans]
      · intro q hq
        obtain rfl | hq := List.mem_cons.mp hq
        · exact hp
        · exact hothers q hq
      · rw [setPlan, if_neg (fun heq => hp (heq.trans hplan)), hset plan hplan]
        rfl

theorem eq_of_mem_newPlan (h : step ∈ (newPlan tracking b).steps) : step = .startTracking := by
  cases tracking with
  | false => cases h
  | true => exact List.mem_singleton.mp h

theorem newPlan_wellFormed (a : Arena) (find : EntityLookup) (tracking : Bool) (b : BoundInclude) :
    (newPlan tracking b).WellFormed a find tracking where
  tracked := by cases tracking <;> simp [newPlan]
  tracked_once := by cases tracking <;> simp [newPlan]
  distinct := by cases tracking <;> simp [newPlan]
  preceded := by
    intro earlier step later hsplit q hq hpart
    have hmem : step ∈ (newPlan tracking b).steps := by simp [hsplit]
    rw [eq_of_mem_newPlan hmem] at hpart
    exact absurd (List.prefix_nil.mp hpart) hq
  slots := by cases tracking <;> rfl
  fits := by
    intro step hstep
    rw [eq_of_mem_newPlan hstep]
    trivial

theorem newPlan_loads (tracking : Bool) (b : BoundInclude) : (newPlan tracking b).loads = [] := by
  cases tracking <;> rfl

theorem perm_flatMap_loads (front back : List IncludePlan) (p : IncludePlan) :
    ((front ++ p :: back).flatMap (·.loads)).Perm
      (p.loads ++ (front ++ back).flatMap (·.loads)) := by
  rw [← List.flatMap_cons]
  exact List.perm_middle.flatMap_right _

theorem drafted_planFor? {c : CompiledIncludes} (h : c.WellFormed a find tracking)
    {front back : List IncludePlan}
    (hplans : c.plans = front ++ (c.planFor? b.source).toList ++ back) :
    Drafted a find tracking ((front ++ back).flatMap (·.loads))
      ((c.planFor? b.source).getD (newPlan tracking b), c.collections) := by
  have hloads := h.loads
  cases hplan : c.planFor? b.source with
  | none =>
    rw [hplan] at hplans
    rw [Option.getD_none]
    refine ⟨newPlan_wellFormed a find tracking b, h.ids, ?_, ?_⟩
    · rw [newPlan_loads]
      simpa [hplans] using hloads
    · intro path n id hstep
      cases eq_of_mem_newPlan hstep
  | some p =>
    have hp : p ∈ c.plans := List.mem_of_find?_eq_some hplan
    rw [hplan] at hplans
    rw [Option.getD_some]
    refine ⟨h.plans p hp, h.ids, ?_, h.served p hp⟩
    rw [hplans, Option.toList_some, List.append_assoc, List.singleton_append] at hloads
    exact (perm_flatMap_loads front back p).symm.trans hloads

theorem source_planFor? (c : CompiledIncludes) (tracking : Bool) (b : BoundInclude) :
    ((c.planFor? b.source).getD (newPlan tracking b)).source = b.source := by
  cases hplan : c.planFor? b.source with
  | none => rfl
  | some p =>
    have hp := List.find?_some hplan
    exact eq_of_beq hp

/-- The plan of a source and all loads, after an include was added. -/
def extended (tracking : Bool) (c : CompiledIncludes) (b : BoundInclude) : Draft :=
  addSteps tracking b [] b.navigations
    ((c.planFor? b.source).getD (newPlan tracking b), c.collections)

theorem addInclude_eq (tracking : Bool) (c : CompiledIncludes) (b : BoundInclude) :
    addInclude tracking c b =
      ⟨setPlan (extended tracking c b).1 c.plans, (extended tracking c b).2⟩ := rfl

theorem extended_extends (tracking : Bool) (c : CompiledIncludes) (b : BoundInclude) :
    Extends ((c.planFor? b.source).getD (newPlan tracking b), c.collections)
      (extended tracking c b) :=
  addSteps_extends tracking b [] b.navigations _

theorem source_extended (tracking : Bool) (c : CompiledIncludes) (b : BoundInclude) :
    (extended tracking c b).1.source = b.source :=
  (extended_extends tracking c b).source.trans (source_planFor? c tracking b)

/-- The plan of the source of an include is extended; the others stay. -/
theorem mem_addInclude_plans {c : CompiledIncludes} (h : (c.plans.map (·.source)).Nodup) :
    p ∈ (addInclude tracking c b).plans ↔
      p = (extended tracking c b).1 ∨ p ∈ c.plans ∧ p.source ≠ b.source := by
  obtain ⟨front, back, hplans, hothers, hset⟩ := split_planFor? h b.source
  have hrest : p ∈ front ++ back ↔ p ∈ c.plans ∧ p.source ≠ b.source := by
    constructor
    · intro hp
      refine ⟨?_, hothers p hp⟩
      rw [hplans]
      exact ((List.sublist_append_left front _).append_right back).subset hp
    · rintro ⟨hp, hsource⟩
      have hplan : p ∉ (c.planFor? b.source).toList := by
        intro hmem
        have hfound := List.find?_some (Option.mem_toList.mp hmem)
        exact hsource (eq_of_beq hfound)
      rw [hplans] at hp
      simp only [List.mem_append] at hp ⊢
      exact hp.imp_left fun hp => hp.resolve_right hplan
  rw [addInclude_eq, hset _ (source_extended tracking c b), ← hrest, ← List.mem_cons]
  exact List.perm_middle.mem_iff

theorem addInclude_wellFormed {c : CompiledIncludes} (h : c.WellFormed a find tracking)
    (hbinds : Binds a find b.source path b.navigations)
    (hreferences : ∀ n ∈ b.navigations.dropLast, n.isCollection = false) :
    (addInclude tracking c b).WellFormed a find tracking := by
  obtain ⟨front, back, hplans, hothers, hset⟩ := split_planFor? h.sources b.source
  have hfirst (n : Navigation) (ns : List Navigation) (_ : b.navigations = n :: ns) :
      IncludeStep.PassesThrough ((c.planFor? b.source).getD (newPlan tracking b)).steps
        (([] ++ [n] : List Navigation).map (·.name)) := passesThrough_singleton _ n.name
  have hdrafted : Drafted a find tracking ((front ++ back).flatMap (·.loads))
      (extended tracking c b) :=
    addSteps_drafted (drafted_planFor? h hplans) (source_planFor? c tracking b).symm hbinds rfl
      hreferences hfirst
  have hset : (addInclude tracking c b).plans = front ++ (extended tracking c b).1 :: back :=
    hset _ (source_extended tracking c b)
  constructor
  · have hrest : ((front ++ back).map (·.source)).Nodup := by
      apply List.Nodup.sublist ?_ h.sources
      rw [hplans]
      exact ((List.sublist_append_left front _).append_right back).map _
    rw [hset, (List.perm_middle.map _).nodup_iff, List.map_cons, List.nodup_cons, source_extended]
    constructor
    · intro hsource
      obtain ⟨p, hp, hpsource⟩ := List.mem_map.mp hsource
      exact hothers p hp hpsource
    · exact hrest
  · intro p hp
    obtain rfl | ⟨hp, -⟩ := (mem_addInclude_plans h.sources).mp hp
    · exact hdrafted.plan
    · exact h.plans p hp
  · exact hdrafted.ids
  · rw [hset]
    exact (perm_flatMap_loads front back _).trans hdrafted.loads
  · intro p hp
    obtain rfl | ⟨hp, -⟩ := (mem_addInclude_plans h.sources).mp hp
    · exact hdrafted.served
    · exact Served.mono (h.served p hp) (extended_extends tracking c b).loads

/-! ### Compilation -/

theorem empty_wellFormed (a : Arena) (find : EntityLookup) (tracking : Bool) :
    CompiledIncludes.empty.WellFormed a find tracking :=
  ⟨.nil, by simp [CompiledIncludes.empty], rfl, .nil, by simp [CompiledIncludes.empty]⟩

theorem mem_ranked {bs : List BoundInclude} : b ∈ ranked bs ↔ b ∈ bs := by
  have hrank : b.rank < 4 := by
    unfold BoundInclude.rank
    split <;> split <;> omega
  simp only [ranked, List.mem_flatMap, List.mem_range, List.mem_filter, beq_iff_eq]
  constructor
  · rintro ⟨_, _, hb, _⟩
    exact hb
  · intro hb
    exact ⟨b.rank, hrank, hb, rfl⟩

/-- An include that is planned for. -/
def Plannable (a : Arena) (find : EntityLookup) (b : BoundInclude) : Prop :=
  (∃ path, Binds a find b.source path b.navigations) ∧
    ∀ n ∈ b.navigations.dropLast, n.isCollection = false

theorem foldl_addInclude_wellFormed {bs : List BoundInclude} (hbs : ∀ b ∈ bs, Plannable a find b)
    {c : CompiledIncludes} (h : c.WellFormed a find tracking) :
    (bs.foldl (addInclude tracking) c).WellFormed a find tracking := by
  induction bs generalizing c with
  | nil => exact h
  | cons b bs ih =>
    obtain ⟨⟨path, hbinds⟩, hreferences⟩ := hbs b (by simp)
    exact ih (fun b hb => hbs b (by simp [hb])) (addInclude_wellFormed h hbinds hreferences)

theorem assemble_wellFormed {bs : List BoundInclude} (hbs : ∀ b ∈ bs, Plannable a find b) :
    (assemble tracking bs).WellFormed a find tracking :=
  foldl_addInclude_wellFormed (fun b hb => hbs b (mem_ranked.mp hb))
    (empty_wellFormed a find tracking)

variable {root : ModelId} {context : CompilationContext} {m : QueryModel} {results : List SourceId}

theorem plannable_of_bindAll {includes : List Asked} {bs : List BoundInclude}
    (h : (bindAll a find results includes).1 = .ok bs) : ∀ b ∈ bs, Plannable a find b := by
  intro b hb
  rw [(bindAll_eq_ok_iff.mp h).2] at hb
  obtain ⟨i, -, hi⟩ := List.mem_filterMap.mp hb
  obtain ⟨⟨-, hbinds, hreferences⟩, hsource, -⟩ := planned?_eq_some_iff.mp hi
  exact ⟨⟨i.2, hsource ▸ hbinds⟩, hreferences⟩

theorem compile_of_scalar (hm : a.model root = .ok m) (hscalar : m.isScalar = true) :
    (compile a root context find).1 = .ok .empty := by
  simp only [compile, hm, hscalar, if_true]
  split <;> rfl

theorem compile_of_results (hm : a.model root = .ok m) (hscalar : m.isScalar = false)
    (hresults : a.resultSources root = .ok results) :
    (compile a root context find).1 =
      (bindAll a find results context.includes).1.map (assemble context.isTracking) := by
  simp only [compile, hm, hscalar, hresults]
  split
  next hnone =>
    rw [List.isEmpty_iff.mp hnone]
    rfl
  next => rfl

/-- If includes compile there is nothing to plan for, or they bind. -/
theorem compile_ok_cases {compiled : CompiledIncludes}
    (h : (compile a root context find).1 = .ok compiled) :
    compiled = .empty ∨ ∃ results bs, (bindAll a find results context.includes).1 = .ok bs ∧
      compiled = assemble context.isTracking bs := by
  cases hnone : context.includes.isEmpty with
  | true =>
    simp only [compile, hnone, if_true] at h
    exact .inl (Except.ok.inj h).symm
  | false =>
    cases hm : a.model root with
    | error error => simp [compile, hnone, hm] at h
    | ok m =>
      cases hscalar : m.isScalar with
      | true =>
        rw [compile_of_scalar hm hscalar] at h
        exact .inl (Except.ok.inj h).symm
      | false =>
        cases hresults : a.resultSources root with
        | error error => simp [compile, hnone, hm, hscalar, hresults] at h
        | ok results =>
          rw [compile_of_results hm hscalar hresults] at h
          cases hbs : (bindAll a find results context.includes).1 with
          | error error =>
            rw [hbs] at h
            cases h
          | ok bs =>
            rw [hbs] at h
            exact .inr ⟨results, bs, hbs, (Except.ok.inj h).symm⟩

/-- Whenever includes compile, the plans and the loads are well formed: one plan for a source, its
steps in order, and a load for each collection step, the one that it names. -/
theorem compile_wellFormed (a : Arena) (root : ModelId) (context : CompilationContext)
    (find : EntityLookup) {compiled : CompiledIncludes}
    (h : (compile a root context find).1 = .ok compiled) :
    compiled.WellFormed a find context.isTracking := by
  obtain rfl | ⟨results, bs, hbs, rfl⟩ := compile_ok_cases h
  · exact empty_wellFormed a find context.isTracking
  · exact assemble_wellFormed (plannable_of_bindAll hbs)

/-! ### Orders that a second model takes over -/

/-- Customers have orders and an address, and orders have a customer. -/
def shop : EntityModel :=
  .ofTypes [⟨"Order", [.reference "Customer" "Customer"]⟩,
    ⟨"Customer",
      [.collection "Orders" "Order", (Navigation.reference "Address" "Address").toDependent]⟩,
    ⟨"Address", []⟩]

def passedOrders : Arena where
  sources := [⟨"o", .mainFrom, .entityQuery "Order", some "Order"⟩,
    ⟨"x", .mainFrom, .subQuery 0, none⟩]
  models := [.ofSource 0, .ofSource 1]

/-- Includes with common parts, on both sources. -/
def overlapping : List AppliedDirective :=
  [⟨.includes ["Customer", "Address"], 0, 0⟩, ⟨.includes ["Customer", "Orders"], 1, 1⟩,
    ⟨.includes ["Customer", "Orders"], 0, 0⟩, ⟨.includes ["Customer"], 0, 0⟩]

def overlappingContext : CompilationContext :=
  { CompilationContext.ofDefault .trackAll with directives := overlapping }

theorem compile_wellFormed_overlapping :
    ∃ compiled, (compile passedOrders 1 overlappingContext shop.find?).1 = .ok compiled ∧
      compiled.plans.map (·.referenceCount) = [1, 2] ∧ compiled.collections.length = 2 ∧
      compiled.WellFormed passedOrders shop.find? true :=
  ⟨_, rfl, rfl, rfl, compile_wellFormed passedOrders 1 overlappingContext shop.find? rfl⟩

end Include

end QueryTree
