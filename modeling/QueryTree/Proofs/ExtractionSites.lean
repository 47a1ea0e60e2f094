import Mathlib.Data.List.Forall2
import QueryTree.Proofs.Extraction

/-! Where an extraction acts. The visit of an expression works from the leaves to the root; here it
is described from the root to the leaves. The maximal subexpressions that move are the sites of the
expression. An extraction places them one after the other, and nothing else in it changes a state or
fails. -/

namespace QueryTree

namespace Expr

theorem sizeOf_lt_of_mem_children {c e : Expr} (h : c ∈ e.children) : sizeOf c < sizeOf e := by
  cases e <;> simp only [children, List.mem_cons, List.not_mem_nil, or_false] at h
  case staticCall m args =>
    have := List.sizeOf_lt_of_mem h
    simp only [staticCall.sizeOf_spec]
    omega
  case call t m args =>
    rcases h with rfl | h
    · simp only [call.sizeOf_spec]
      omega
    · have := List.sizeOf_lt_of_mem h
      simp only [call.sizeOf_spec]
      omega
  case invoke t args =>
    rcases h with rfl | h
    · simp only [invoke.sizeOf_spec]
      omega
    · have := List.sizeOf_lt_of_mem h
      simp only [invoke.sizeOf_spec]
      omega
  all_goals
    rcases h with rfl | rfl | rfl <;> simp <;> omega

def isLambda : Expr → Bool
  | lambda .. => true
  | _ => false

end Expr

namespace Extractor

/-- Whether an expression moves as a whole: all of its nodes may be computed early, and none of them
is a call that needs literals. -/
def movable (x : Extractor) (t : Expr) : Bool :=
  t.nodes.all fun n => x.policy.allows n && !needsLiterals n

def maximal (x : Extractor) (e : Expr) : List Expr :=
  if x.movable e then [e] else e.children.attach.flatMap fun ⟨c, _⟩ => x.maximal c
termination_by sizeOf e
decreasing_by exact Expr.sizeOf_lt_of_mem_children (by assumption)

/-- Replaces the maximal subexpressions that move, from the root down. What takes their place
depends on whether they stand inside a lambda, and whether directly under a call that needs
literals. -/
def replaceMaximal (x : Extractor) (put : Bool → Bool → Expr → Expr) (inLambda literal : Bool)
    (e : Expr) : Expr :=
  if x.movable e then put inLambda literal e
  else e.withChildren (e.children.attach.map fun ⟨c, _⟩ =>
    x.replaceMaximal put (inLambda || e.isLambda) (needsLiterals e) c)
termination_by sizeOf e
decreasing_by exact Expr.sizeOf_lt_of_mem_children (by assumption)

/-- The value of an expression as a constant, if it has one. -/
def valueOf (x : Extractor) (t : Expr) : Expr :=
  match x.interpreter.evaluate t with
  | .ok v => .constant v
  | .error _ => t

/-- Whether an expression becomes a parameter where it stands: it has to read a captured value or
stand outside every lambda. -/
def becomesParameter (x : Extractor) (inLambda literal : Bool) (t : Expr) : Bool :=
  !literal && x.parameterize && (t.nodes.any captures || !inLambda)

variable {x : Extractor} {put : Bool → Bool → Expr → Expr} {inLambda literal : Bool} {e t : Expr}

theorem movable_iff : x.movable e = true ↔
    x.policy.allows e = true ∧ needsLiterals e = false ∧ ∀ c ∈ e.children, x.movable c = true := by
  simp only [movable, Expr.nodes_eq e, List.all_cons, List.all_flatMap, Bool.and_eq_true,
    Bool.not_eq_true', List.all_eq_true, and_assoc]

theorem movable_lambda (ps : List String) (b : Expr) : x.movable (.lambda ps b) = false := by
  rw [Bool.eq_false_iff, ne_eq, movable_iff]
  simp [Policy.allows]

theorem movable_of_child {c : Expr} (hm : x.movable e = true) (hc : c ∈ e.children) :
    x.movable c = true :=
  (movable_iff.mp hm).2.2 c hc

theorem maximal_of_movable (h : x.movable e = true) : x.maximal e = [e] := by
  rw [maximal, if_pos h]

theorem mem_maximal_of_not (h : x.movable e = false) :
    t ∈ x.maximal e ↔ ∃ c ∈ e.children, t ∈ x.maximal c := by
  rw [maximal, if_neg (by simp [h])]
  simp

theorem replaceMaximal_of_movable (h : x.movable e = true) :
    x.replaceMaximal put inLambda literal e = put inLambda literal e := by
  rw [replaceMaximal, if_pos h]

theorem replaceMaximal_of_not (h : x.movable e = false) :
    x.replaceMaximal put inLambda literal e = e.withChildren (e.children.map
      (x.replaceMaximal put (inLambda || e.isLambda) (needsLiterals e))) := by
  rw [replaceMaximal, if_neg (by simp [h])]
  simp

theorem valueOf_of_ok {v : Value} (h : x.interpreter.evaluate t = .ok v) :
    x.valueOf t = .constant v := by
  rw [valueOf, h]

/-! ### Sites -/

/-- A maximal subexpression that moves, with what is known of its place. -/
structure Site where
  inLambda : Bool
  /-- Whether it stands directly under a call that needs literals. -/
  literal : Bool
  root : Expr

/-- An expression is a site of its own if it moves. -/
def siteAt (x : Extractor) (inLambda literal : Bool) (e : Expr) : List Site :=
  if x.movable e then [⟨inLambda, literal, e⟩] else []

/-- The sites strictly below an expression that stays. Those of the subexpressions come before the
subexpressions themselves. -/
def sitesBelow (x : Extractor) (inLambda : Bool) (e : Expr) : List Site :=
  if x.movable e then []
  else
    (e.children.attach.flatMap fun ⟨c, _⟩ => x.sitesBelow (inLambda || e.isLambda) c) ++
      e.children.flatMap (x.siteAt (inLambda || e.isLambda) (needsLiterals e))
termination_by sizeOf e
decreasing_by exact Expr.sizeOf_lt_of_mem_children (by assumption)

/-- The sites of an expression, in the order in which they are placed. -/
def sites (x : Extractor) (inLambda literal : Bool) (e : Expr) : List Site :=
  x.sitesBelow inLambda e ++ x.siteAt inLambda literal e

theorem sitesBelow_of_movable (h : x.movable e = true) : x.sitesBelow inLambda e = [] := by
  rw [sitesBelow, if_pos h]

theorem sitesBelow_of_not (h : x.movable e = false) :
    x.sitesBelow inLambda e = e.children.flatMap (x.sitesBelow (inLambda || e.isLambda)) ++
      e.children.flatMap (x.siteAt (inLambda || e.isLambda) (needsLiterals e)) := by
  rw [sitesBelow, if_neg (by simp [h])]
  simp

theorem sites_of_movable (h : x.movable e = true) :
    x.sites inLambda literal e = [⟨inLambda, literal, e⟩] := by
  rw [sites, sitesBelow_of_movable h, siteAt, if_pos h, List.nil_append]

theorem mem_sites_of_not (h : x.movable e = false) {site : Site} :
    site ∈ x.sites inLambda literal e ↔
      ∃ c ∈ e.children, site ∈ x.sites (inLambda || e.isLambda) (needsLiterals e) c := by
  have hnone : x.siteAt inLambda literal e = [] := by rw [siteAt, if_neg (by simp [h])]
  rw [sites, hnone, List.append_nil, sitesBelow_of_not h]
  simp only [sites, List.mem_append, List.mem_flatMap]
  constructor
  · rintro (⟨c, hc, hsite⟩ | ⟨c, hc, hsite⟩)
    · exact ⟨c, hc, .inl hsite⟩
    · exact ⟨c, hc, .inr hsite⟩
  · rintro ⟨c, hc, hsite | hsite⟩
    · exact .inl ⟨c, hc, hsite⟩
    · exact .inr ⟨c, hc, hsite⟩

/-- The roots of the sites are the maximal subexpressions that move. -/
theorem mem_maximal_iff_sites (inLambda literal : Bool) :
    t ∈ x.maximal e ↔ ∃ site ∈ x.sites inLambda literal e, site.root = t := by
  induction e using Expr.byChildren generalizing inLambda literal with
  | step e ih =>
    cases hm : x.movable e with
    | true =>
      rw [maximal_of_movable hm, sites_of_movable hm]
      simp [eq_comm]
    | false =>
      rw [mem_maximal_of_not hm]
      simp only [mem_sites_of_not hm]
      constructor
      · rintro ⟨c, hc, ht⟩
        obtain ⟨site, hsite, hroot⟩ := (ih c hc _ _).mp ht
        exact ⟨site, ⟨c, hc, hsite⟩, hroot⟩
      · rintro ⟨site, ⟨c, hc, hsite⟩, hroot⟩
        exact ⟨c, hc, (ih c hc _ _).mpr ⟨site, hsite, hroot⟩⟩

theorem mem_maximal_iff : t ∈ x.maximal e ↔ ∃ site ∈ x.sites false false e, site.root = t :=
  mem_maximal_iff_sites false false

theorem movable_of_mem_sites {site : Site} (h : site ∈ x.sites inLambda literal e) :
    x.movable site.root = true := by
  induction e using Expr.byChildren generalizing inLambda literal with
  | step e ih =>
    cases hm : x.movable e with
    | true =>
      rw [sites_of_movable hm, List.mem_singleton] at h
      rw [h]
      exact hm
    | false =>
      obtain ⟨c, hc, hsite⟩ := (mem_sites_of_not hm).mp h
      exact ih c hc hsite

/-- A replacement only depends on what takes the place of the sites. -/
theorem replaceMaximal_congr {put' : Bool → Bool → Expr → Expr}
    (h : ∀ site ∈ x.sites inLambda literal e,
      put site.inLambda site.literal site.root = put' site.inLambda site.literal site.root) :
    x.replaceMaximal put inLambda literal e = x.replaceMaximal put' inLambda literal e := by
  induction e using Expr.byChildren generalizing inLambda literal with
  | step e ih =>
    cases hm : x.movable e with
    | true =>
      rw [replaceMaximal_of_movable hm, replaceMaximal_of_movable hm]
      exact h ⟨inLambda, literal, e⟩ (by simp [sites_of_movable hm])
    | false =>
      rw [replaceMaximal_of_not hm, replaceMaximal_of_not hm]
      congr 1
      apply List.map_congr_left
      intro c hc
      apply ih c hc
      intro site hsite
      exact h site ((mem_sites_of_not hm).mpr ⟨c, hc, hsite⟩)

/-! The sites depend on the policy of the extractor only. -/

section SamePolicy

variable {y : Extractor} (h : x.policy = y.policy)

include h

theorem movable_of_policy (t : Expr) : x.movable t = y.movable t := by
  unfold movable
  rw [h]

theorem sites_of_policy (e : Expr) : x.sites inLambda literal e = y.sites inLambda literal e := by
  have hat : x.siteAt = y.siteAt := by
    funext inLambda literal t
    rw [siteAt, siteAt, movable_of_policy h]
  have hbelow : x.sitesBelow inLambda e = y.sitesBelow inLambda e := by
    induction e using Expr.byChildren generalizing inLambda with
    | step e ih =>
      cases hm : x.movable e with
      | true => rw [sitesBelow_of_movable hm, sitesBelow_of_movable (movable_of_policy h e ▸ hm)]
      | false =>
        rw [sitesBelow_of_not hm, sitesBelow_of_not (movable_of_policy h e ▸ hm), hat]
        congr 1
        apply List.flatMap_congr
        intro c hc
        exact ih c hc
  rw [sites, sites, hbelow, hat]

theorem mem_maximal_of_policy : t ∈ x.maximal e ↔ t ∈ y.maximal e := by
  rw [mem_maximal_iff, sites_of_policy h, ← mem_maximal_iff]

theorem replaceMaximal_of_policy (e : Expr) :
    x.replaceMaximal put inLambda literal e = y.replaceMaximal put inLambda literal e := by
  induction e using Expr.byChildren generalizing inLambda literal with
  | step e ih =>
    have hy := movable_of_policy h e
    cases hm : x.movable e with
    | true => rw [replaceMaximal_of_movable hm, replaceMaximal_of_movable (hy ▸ hm)]
    | false =>
      rw [replaceMaximal_of_not hm, replaceMaximal_of_not (hy ▸ hm)]
      congr 1
      apply List.map_congr_left
      intro c hc
      exact ih c hc

end SamePolicy

/-! ### Placements -/

/-- Whether an expression is left to be evaluated when the query runs. -/
def defers (x : Extractor) (t : Expr) : Bool := x.contextAccessors && t.usesContext

/-- Whether a site is replaced by a parameter. -/
def parameterizes (x : Extractor) (inLambda literal : Bool) (t : Expr) : Bool :=
  x.defers t || x.becomesParameter inLambda literal t

/-- What a parameter for an expression is bound to. -/
def bindingOf (x : Extractor) (t : Expr) : Except EvalError Binding :=
  if x.defers t then .ok (accessorBinding t) else (x.interpreter.evaluate t).map .value

/-- The name of a new parameter for an expression. -/
def newName (x : Extractor) (t : Expr) (store : ParameterStore) : String :=
  parameterName (if x.defers t then accessorBase t else (baseName? t).getD "p") store

def placeAt (x : Extractor) (site : Site) : ExtractM Expr :=
  x.place site.inLambda site.literal site.root (site.root.nodes.any captures)

/-- The four ways in which the placement of a site ends. -/
inductive Places (x : Extractor) (site : Site) (s : Extraction) :
    Except Error Expr → Extraction → Prop where
  | known {name : String} (hp : x.parameterizes site.inLambda site.literal site.root = true)
      (hk : s.known.lookup site.root = some name) : Places x site s (.ok (.parameter name)) s
  | new {binding : Binding} (hp : x.parameterizes site.inLambda site.literal site.root = true)
      (hk : s.known.lookup site.root = none) (hb : x.bindingOf site.root = .ok binding) :
      Places x site s (.ok (.parameter (x.newName site.root s.store)))
        ⟨s.store.add (x.newName site.root s.store) binding,
          s.known ++ [(site.root, x.newName site.root s.store)]⟩
  | value {v : Value} (hp : x.parameterizes site.inLambda site.literal site.root = false)
      (hv : x.interpreter.evaluate site.root = .ok v) : Places x site s (.ok (.constant v)) s
  | fails {cause : EvalError}
      (hk : x.parameterizes site.inLambda site.literal site.root = true →
        s.known.lookup site.root = none)
      (hb : x.bindingOf site.root = .error cause) :
      Places x site s (.error (x.fault site.root cause)) s

theorem bindingOf_of_not_defers (h : x.defers t = false) :
    x.bindingOf t = (x.interpreter.evaluate t).map .value := by
  rw [bindingOf, h]
  rfl

theorem placeAt_places (x : Extractor) (site : Site) (s : Extraction) :
    x.Places site s (x.placeAt site s).1 (x.placeAt site s).2 := by
  obtain ⟨inLambda, literal, t⟩ := site
  have hcaptured : (!literal && x.parameterize && (t.nodes.any captures || !inLambda)) =
      x.becomesParameter inLambda literal t := rfl
  have hdefers : (x.contextAccessors && t.usesContext) = x.defers t := rfl
  simp only [placeAt, place, hcaptured, hdefers]
  cases hd : x.defers t with
  | true =>
    have hp : x.parameterizes inLambda literal t = true := by simp [parameterizes, hd]
    rw [if_pos rfl]
    unfold parameterFor
    cases hk : s.known.lookup t with
    | some name => exact .known hp hk
    | none =>
      have hb : x.bindingOf t = .ok (accessorBinding t) := by simp [bindingOf, hd]
      have hname : x.newName t s.store = parameterName (accessorBase t) s.store := by
        simp [newName, hd]
      have hnew : x.Places ⟨inLambda, literal, t⟩ s _ _ := .new hp hk hb
      simpa only [hname] using hnew
  | false =>
    have hb := bindingOf_of_not_defers hd
    rw [if_neg Bool.false_ne_true]
    cases hp : x.becomesParameter inLambda literal t with
    | true =>
      have hp : x.parameterizes inLambda literal t = true := by simp [parameterizes, hp]
      rw [if_pos rfl]
      cases hk : s.known.lookup t with
      | some name => exact .known hp hk
      | none =>
        cases hv : x.interpreter.evaluate t with
        | error cause => exact .fails (fun _ => hk) (by rw [hb, hv]; rfl)
        | ok v =>
          have hname : x.newName t s.store = parameterName ((baseName? t).getD "p") s.store := by
            simp [newName, hd]
          have hb : x.bindingOf t = .ok (.value v) := by rw [hb, hv]; rfl
          have hnew : x.Places ⟨inLambda, literal, t⟩ s _ _ := .new hp hk hb
          simpa only [parameterFor, hk, hname] using hnew
    | false =>
      have hp : x.parameterizes inLambda literal t = false := by simp [parameterizes, hd, hp]
      rw [if_neg Bool.false_ne_true]
      cases hc : t.isConstant with
      | true =>
        rw [if_pos rfl]
        cases t with
        | constant v => exact .value hp rfl
        | _ => cases hc
      | false =>
        rw [if_neg Bool.false_ne_true]
        cases hv : x.interpreter.evaluate t with
        | error cause =>
          have hunbound : x.bindingOf t = .error cause := by rw [hb, hv]; rfl
          exact .fails (by simp [hp]) hunbound
        | ok v => exact .value hp hv

/-- Places some sites one after the other, up to the first that fails. -/
def runSites (x : Extractor) : List Site → ExtractM Unit
  | [] => pure ()
  | site :: rest => do
    let _ ← x.placeAt site
    x.runSites rest

theorem runSites_cons (x : Extractor) (site : Site) (rest : List Site) (s : Extraction) :
    x.runSites (site :: rest) s =
      match x.placeAt site s with
      | (.ok _, s') => x.runSites rest s'
      | (.error error, s') => (.error error, s') := by
  rw [runSites, ExtractM.bind_apply]
  rcases x.placeAt site s with ⟨_ | _, _⟩ <;> rfl

theorem runSites_congr {y : Extractor} {run : List Site}
    (h : ∀ site ∈ run, x.placeAt site = y.placeAt site) : x.runSites run = y.runSites run := by
  induction run with
  | nil => rfl
  | cons site rest ih =>
    rw [List.forall_mem_cons] at h
    rw [runSites, runSites, h.1, ih h.2]

theorem runSites_append (x : Extractor) (before after : List Site) (s : Extraction) :
    x.runSites (before ++ after) s =
      match x.runSites before s with
      | (.ok _, s') => x.runSites after s'
      | (.error error, s') => (.error error, s') := by
  induction before generalizing s with
  | nil => rfl
  | cons site rest ih =>
    rw [List.cons_append, runSites_cons, runSites_cons]
    rcases x.placeAt site s with ⟨_ | _, s'⟩
    · rfl
    · exact ih s'

end Extractor

/-- A later state of an extraction knows all the parameters that expressions have. -/
def Extraction.Grows (s later : Extraction) : Prop :=
  ∀ root name, s.known.lookup root = some name → later.known.lookup root = some name

theorem Extraction.Grows.refl (s : Extraction) : s.Grows s := fun _ _ h => h

theorem Extraction.Grows.trans {a b c : Extraction} (hab : a.Grows b) (hbc : b.Grows c) :
    a.Grows c :=
  fun root name h => hbc root name (hab root name h)

namespace Extractor

open ExtractM

variable {x : Extractor} {inLambda literal : Bool} {e t c : Expr} {s : Extraction}
  {before after : List Site} {α β : Type}

theorem Places.grows {site : Site} {result : Except Error Expr} {s' : Extraction}
    (h : x.Places site s result s') : s.Grows s' := by
  cases h with
  | known | value | fails => exact .refl s
  | new hp hk hb =>
    intro root name hroot
    rw [List.lookup_append, hroot, Option.some_or]

/-- What takes the place of a site in a state that knows the parameters. -/
def put (x : Extractor) (s : Extraction) (inLambda literal : Bool) (t : Expr) : Expr :=
  if x.parameterizes inLambda literal t then .parameter ((s.known.lookup t).getD "")
  else x.valueOf t

theorem put_of_known {name : String} (hp : x.parameterizes inLambda literal t = true)
    (hk : s.known.lookup t = some name) : x.put s inLambda literal t = .parameter name := by
  rw [put, if_pos hp, hk, Option.getD_some]

theorem put_of_value (hp : x.parameterizes inLambda literal t = false) :
    x.put s inLambda literal t = x.valueOf t := by
  rw [put, hp]
  rfl

/-- `e'` is `e` with its sites replaced, and stays so as more parameters become known. -/
def Shows (x : Extractor) (inLambda literal : Bool) (s : Extraction) (e e' : Expr) : Prop :=
  ∀ later, s.Grows later → e' = x.replaceMaximal (x.put later) inLambda literal e

/-- A step that does to the state what the placement of some sites does. -/
def Follows (x : Extractor) (run : List Site) (s : Extraction) (Good : α → Extraction → Prop)
    (m : ExtractM α) : Prop :=
  Leads m s (fun a s' => x.runSites run s = (.ok (), s') ∧ s.Grows s' ∧ Good a s')
    fun error s' => x.runSites run s = (.error error, s')

theorem Follows.pure {Good : α → Extraction → Prop} {a : α} (h : Good a s) :
    x.Follows [] s Good (Pure.pure a) :=
  Leads.pure ⟨rfl, .refl s, h⟩

theorem Follows.bind {Good : α → Extraction → Prop} {Next : β → Extraction → Prop} {m : ExtractM α}
    {f : α → ExtractM β} (hm : x.Follows before s Good m)
    (hf : ∀ a s', s.Grows s' → Good a s' → x.Follows after s' Next (f a)) :
    x.Follows (before ++ after) s Next (m >>= f) := by
  have hfirst : Leads m s (fun a s' => x.runSites before s = (.ok (), s') ∧ s.Grows s' ∧ Good a s')
      fun error s' => x.runSites (before ++ after) s = (.error error, s') := by
    apply hm.mono (fun _ _ h => h)
    intro error s' hrun
    rw [runSites_append, hrun]
  apply hfirst.bind
  rintro a s₁ ⟨hrun, hgrows, ha⟩
  apply (hf a s₁ hgrows ha).mono
  · rintro b s₂ ⟨hrest, hlater, hb⟩
    rw [runSites_append, hrun]
    exact ⟨hrest, hgrows.trans hlater, hb⟩
  · intro error s₂ hrest
    rw [runSites_append, hrun]
    exact hrest

theorem place_follows (hm : x.movable t = true) :
    x.Follows [⟨inLambda, literal, t⟩] s (fun e' s' => x.Shows inLambda literal s' t e')
      (x.place inLambda literal t (t.nodes.any captures)) := by
  have hplaces := x.placeAt_places ⟨inLambda, literal, t⟩ s
  have hrun := x.runSites_cons ⟨inLambda, literal, t⟩ [] s
  change Leads (x.placeAt ⟨inLambda, literal, t⟩) s _ _
  unfold Leads
  rcases hresult : x.placeAt ⟨inLambda, literal, t⟩ s with ⟨error | e', s'⟩
  · rw [hresult] at hrun
    exact hrun
  · rw [hresult] at hplaces hrun
    refine ⟨hrun, hplaces.grows, ?_⟩
    intro later hlater
    rw [replaceMaximal_of_movable hm]
    cases hplaces with
    | known hp hk => rw [put_of_known hp (hlater t _ hk)]
    | new hp hk hb =>
      have hlookup : (s.known ++ [(t, x.newName t s.store)]).lookup t =
          some (x.newName t s.store) := by
        simp [List.lookup_append, hk]
      rw [put_of_known hp (hlater t _ hlookup)]
    | value hp hv => rw [put_of_value hp, valueOf_of_ok hv]

/-- What a visit of `c` hands on: `c` itself if it moves, and otherwise `c` with its sites
replaced. -/
def Visited (x : Extractor) (inLambda : Bool) (s : Extraction) (c : Expr) (part : Expr × Mobility) :
    Prop :=
  x.movable c = true ∧ part = (c, .moves (c.nodes.any captures)) ∨
  x.movable c = false ∧ ∃ c', part = (c', .stays) ∧ ∀ literal, x.Shows inLambda literal s c c'

theorem Shows.grow {later : Extraction} {e' : Expr} (h : x.Shows inLambda literal s e e')
    (hg : s.Grows later) : x.Shows inLambda literal later e e' :=
  fun final hf => h final (hg.trans hf)

theorem Visited.grow {later : Extraction} {part : Expr × Mobility}
    (h : x.Visited inLambda s c part) (hg : s.Grows later) : x.Visited inLambda later c part := by
  rcases h with h | ⟨hm, c', hpart, hshows⟩
  · exact .inl h
  · exact .inr ⟨hm, c', hpart, fun literal => (hshows literal).grow hg⟩

theorem placed_follows (literal : Bool) {part : Expr × Mobility}
    (hpart : x.Visited inLambda s c part) :
    x.Follows (x.siteAt inLambda literal c) s (fun e' s' => x.Shows inLambda literal s' c e')
      (x.placed inLambda literal part) := by
  rcases hpart with ⟨hm, rfl⟩ | ⟨hm, c', rfl, hshows⟩
  · rw [siteAt, if_pos hm]
    exact place_follows hm
  · rw [siteAt, if_neg (by simp [hm])]
    exact .pure (hshows literal)

theorem placedAll_follows (literal : Bool) {cs : List Expr} {parts : List (Expr × Mobility)}
    (hparts : List.Forall₂ (x.Visited inLambda s) cs parts) :
    x.Follows (cs.flatMap (x.siteAt inLambda literal)) s
      (fun es s' => List.Forall₂ (x.Shows inLambda literal s') cs es)
      (x.placedAll inLambda literal parts) := by
  have hlater : ∀ s', s.Grows s' → x.Follows (cs.flatMap (x.siteAt inLambda literal)) s'
      (fun es s' => List.Forall₂ (x.Shows inLambda literal s') cs es)
      (x.placedAll inLambda literal parts) := by
    induction hparts with
    | nil => exact fun _ _ => .pure .nil
    | @cons c part cs parts hpart _ ih =>
      intro s' hs'
      rw [List.flatMap_cons]
      apply (placed_follows literal (hpart.grow hs')).bind
      intro c' s₁ hs₁ hc'
      rw [← List.append_nil (cs.flatMap _)]
      apply (ih s₁ (hs'.trans hs₁)).bind
      intro es s₂ hs₂ hes
      exact .pure (.cons (hc'.grow hs₂) hes)
  exact hlater s (.refl s)

theorem visitAll_follows {cs : List Expr}
    (hvisit : ∀ c ∈ cs, ∀ s, x.Follows (x.sitesBelow inLambda c) s
      (fun part s' => x.Visited inLambda s' c part) (x.visit inLambda c)) :
    x.Follows (cs.flatMap (x.sitesBelow inLambda)) s
      (fun parts s' => List.Forall₂ (x.Visited inLambda s') cs parts) (x.visitAll inLambda cs) := by
  induction cs generalizing s with
  | nil => exact .pure .nil
  | cons c cs ih =>
    rw [List.forall_mem_cons] at hvisit
    rw [List.flatMap_cons]
    apply (hvisit.1 s).bind
    intro part s₁ _ hpart
    rw [← List.append_nil (cs.flatMap _)]
    apply (ih hvisit.2).bind
    intro parts s₂ hs₂ hparts
    exact .pure (.cons (hpart.grow hs₂) hparts)

theorem parts_of_movable {cs : List Expr} {parts : List (Expr × Mobility)}
    (hparts : List.Forall₂ (x.Visited inLambda s) cs parts) (hcs : ∀ c ∈ cs, x.movable c = true) :
    parts = cs.map fun c => (c, .moves (c.nodes.any captures)) := by
  induction hparts with
  | nil => rfl
  | @cons c part cs parts hpart _ ih =>
    rw [List.forall_mem_cons] at hcs
    rcases hpart with ⟨_, rfl⟩ | ⟨hm, _⟩
    · rw [ih hcs.2, List.map_cons]
    · rw [hcs.1] at hm
      cases hm

theorem all_isMoving {cs : List Expr} {parts : List (Expr × Mobility)}
    (hparts : List.Forall₂ (x.Visited inLambda s) cs parts) :
    parts.all (·.2.isMoving) = cs.all x.movable := by
  induction hparts with
  | nil => rfl
  | @cons c part cs parts hpart _ ih =>
    rw [List.all_cons, List.all_cons, ih]
    rcases hpart with ⟨hm, rfl⟩ | ⟨hm, c', rfl, _⟩ <;> rw [hm] <;> rfl

/-- A node that stays shows its subexpressions with their sites replaced. -/
theorem Shows.of_children (hm : x.movable e = false) {es : List Expr}
    (hes : List.Forall₂ (x.Shows (inLambda || e.isLambda) (needsLiterals e) s) e.children es) :
    x.Shows inLambda literal s e (e.withChildren es) := by
  intro later hlater
  rw [replaceMaximal_of_not hm]
  congr 1
  have heq : List.Forall₂ (· = ·) es (e.children.map
      (x.replaceMaximal (x.put later) (inLambda || e.isLambda) (needsLiterals e))) := by
    rw [List.forall₂_map_right_iff]
    exact hes.flip.imp fun c' c h => h later hlater
  rwa [List.forall₂_eq_eq_eq] at heq

theorem settle_follows (hl : e.isLambda = false) {parts : List (Expr × Mobility)}
    (hparts : List.Forall₂ (x.Visited inLambda s) e.children parts) :
    x.Follows
      (if x.movable e then [] else e.children.flatMap (x.siteAt inLambda (needsLiterals e))) s
      (fun part s' => x.Visited inLambda s' e part) (x.settle inLambda e parts) := by
  have hcondition : (x.policy.allows e && !needsLiterals e && parts.all (·.2.isMoving)) =
      x.movable e := by
    rw [all_isMoving hparts, Bool.eq_iff_iff, movable_iff]
    simp [and_assoc]
  simp only [settle, hcondition]
  cases hm : x.movable e with
  | true =>
    obtain rfl := parts_of_movable hparts fun c hc => movable_of_child hm hc
    have hfst : (e.children.map fun c => (c, Mobility.moves (c.nodes.any captures))).map (·.1) =
        e.children := by simp [Function.comp_def]
    have hcaptures : (captures e || (e.children.map fun c =>
        (c, Mobility.moves (c.nodes.any captures))).any (·.2.isCaptured)) =
          e.nodes.any captures := by
      simp [Expr.nodes_eq e, List.any_flatMap, Function.comp_def, Mobility.isCaptured]
    apply Follows.pure
    apply Or.inl
    rw [hfst, hcaptures, Expr.withChildren_children]
    exact ⟨hm, rfl⟩
  | false =>
    rw [if_neg Bool.false_ne_true, if_neg Bool.false_ne_true,
      ← List.append_nil (e.children.flatMap _)]
    apply (placedAll_follows (needsLiterals e) hparts).bind
    intro es s₁ _ hes
    apply Follows.pure
    apply Or.inr
    refine ⟨hm, _, rfl, fun literal => .of_children hm ?_⟩
    rwa [hl, Bool.or_false]

theorem visit_follows (inLambda : Bool) (e : Expr) (s : Extraction) :
    x.Follows (x.sitesBelow inLambda e) s (fun part s' => x.Visited inLambda s' e part)
      (x.visit inLambda e) := by
  induction e using Expr.byChildren generalizing inLambda s with
  | step e ih =>
    by_cases hlambda : ∃ ps b, e = .lambda ps b
    · obtain ⟨ps, b, rfl⟩ := hlambda
      have hm : x.movable (.lambda ps b) = false := movable_lambda ps b
      have hsites : x.sitesBelow inLambda (.lambda ps b) =
          x.sitesBelow true b ++ (x.siteAt true false b ++ []) := by
        rw [sitesBelow_of_not hm]
        simp [Expr.children, Expr.isLambda, needsLiterals]
      rw [hsites]
      apply (ih b (by simp [Expr.children]) true s).bind
      intro part s₁ _ hpart
      apply (placed_follows false hpart).bind
      intro b' s₂ _ hb'
      apply Follows.pure
      apply Or.inr
      have hbody : List.Forall₂ (x.Shows (inLambda || true) false s₂) [b] [b'] := by
        simpa using hb'
      exact ⟨hm, _, rfl, fun literal => .of_children hm hbody⟩
    · have hl : e.isLambda = false := by
        cases e with
        | lambda ps b => exact absurd ⟨ps, b, rfl⟩ hlambda
        | _ => rfl
      have hsites : x.sitesBelow inLambda e = e.children.flatMap (x.sitesBelow inLambda) ++
          if x.movable e then [] else e.children.flatMap (x.siteAt inLambda (needsLiterals e)) := by
        cases hm : x.movable e with
        | false => rw [sitesBelow_of_not hm, hl, Bool.or_false, if_neg Bool.false_ne_true]
        | true =>
          rw [sitesBelow_of_movable hm, if_pos rfl, List.append_nil, eq_comm,
            List.flatMap_eq_nil_iff]
          exact fun c hc => sitesBelow_of_movable (movable_of_child hm hc)
      rw [x.visit_eq inLambda fun ps b h => hlambda ⟨ps, b, h⟩, hsites]
      apply (visitAll_follows fun c hc s => ih c hc inLambda s).bind
      intro parts s₁ _ hparts
      exact settle_follows hl hparts

theorem extractRoot_follows (e : Expr) (s : Extraction) :
    x.Follows (x.sites false false e) s (fun e' s' => x.Shows false false s' e e')
      (x.extractRoot e) := by
  apply (visit_follows false e s).bind
  intro part s₁ _ hpart
  exact placed_follows false hpart

/-- The placement of all sites of an expression, from a store with the parameters of other
expressions. -/
def placements (x : Extractor) (e : Expr) (store : ParameterStore) :
    Except Error Unit × Extraction :=
  x.runSites (x.sites false false e) ⟨store, []⟩

/-- The expression with its sites replaced by what a state knows. -/
def shape (x : Extractor) (s : Extraction) (e : Expr) : Expr :=
  x.replaceMaximal (x.put s) false false e

/-- An extraction places the sites of an expression, and shows them replaced if none fails. -/
theorem extract_eq (x : Extractor) (e : Expr) (store : ParameterStore) :
    x.extract e store = ((x.placements e store).1.map fun _ => x.shape (x.placements e store).2 e,
      (x.placements e store).2.store) := by
  have hfollows := extractRoot_follows (x := x) e ⟨store, []⟩
  have hextract : x.extract e store =
    ((x.extractRoot e ⟨store, []⟩).1, (x.extractRoot e ⟨store, []⟩).2.store) := rfl
  rw [hextract]
  unfold Follows Leads at hfollows
  unfold placements
  split at hfollows
  next e' s' heq =>
    obtain ⟨hrun, _, hshows⟩ := hfollows
    rw [heq, hrun, hshows s' (.refl s')]
    rfl
  next error s' heq =>
    rw [heq, hfollows]
    rfl

end Extractor

end QueryTree
