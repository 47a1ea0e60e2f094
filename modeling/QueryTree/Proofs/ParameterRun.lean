import QueryTree.Proofs.ExtractionSites

/-! What an extraction leaves behind. It adds parameters at the end of the store, one for each
distinct expression that a parameter replaces, in the order in which they are placed. The parameters
that were there before stay as they are. -/

namespace QueryTree

theorem lookup_of_mem {α β : Type} [BEq α] [LawfulBEq α] {l : List (α × β)} {k : α} {v : β}
    (hn : (l.map (·.1)).Nodup) (h : (k, v) ∈ l) : l.lookup k = some v := by
  obtain ⟨front, back, rfl⟩ := List.append_of_mem h
  rw [List.lookup_eq_some_iff]
  refine ⟨front, back, rfl, ?_⟩
  intro p hp
  rw [List.map_append, List.nodup_append] at hn
  have hne : p.1 ≠ k := hn.2.2 p.1 (List.mem_map_of_mem hp) k (by simp)
  simpa using hne.symm

namespace ParameterStore

variable {store : ParameterStore}

theorem Numbered.names_nodup (h : store.Numbered) : store.names.Nodup := by
  unfold List.Nodup names
  rw [List.pairwise_map, List.pairwise_iff_getElem]
  intro i j hi hj hij heq
  obtain ⟨base, hbase⟩ := h i store[i].1 store[i].2 (List.getElem?_eq_getElem hi)
  obtain ⟨base', hbase'⟩ := h j store[j].1 store[j].2 (List.getElem?_eq_getElem hj)
  rw [hbase, hbase'] at heq
  have hsame : i = j := numbered_inj heq
  omega

end ParameterStore

namespace Extraction

/-- The expressions that have a parameter, in the order of their placement. -/
def roots (s : Extraction) : List Expr := s.known.map (·.1)

theorem mem_roots_iff {s : Extraction} {t : Expr} :
    t ∈ s.roots ↔ ∃ name, s.known.lookup t = some name := by
  constructor
  · intro h
    rw [← Option.isSome_iff_exists, List.lookup_isSome_iff]
    obtain ⟨p, hp, rfl⟩ := List.mem_map.mp h
    exact ⟨p, hp, beq_self_eq_true p.1⟩
  · rintro ⟨name, h⟩
    exact List.mem_map_of_mem (mem_of_lookup h)

theorem notMem_roots {s : Extraction} {t : Expr} (h : s.known.lookup t = none) : t ∉ s.roots := by
  rw [mem_roots_iff, h]
  simp

end Extraction

/-- An entry of the store is the parameter that an expression has. -/
structure Extractor.Binds (x : Extractor) (known : Expr × String) (entry : String × Binding) :
    Prop where
  name : entry.1 = known.2
  binding : x.bindingOf known.1 = .ok entry.2

/-- A state that has added a parameter to a store for each expression that it knows. -/
structure Extraction.Built (x : Extractor) (start : ParameterStore) (s : Extraction) : Prop where
  numbered : s.store.Numbered
  added : ∃ added, s.store = start ++ added ∧ List.Forall₂ x.Binds s.known added
  nodup : s.roots.Nodup

namespace Extraction.Built

variable {x : Extractor} {start : ParameterStore} {s : Extraction} {t : Expr}

theorem empty (h : start.Numbered) : Built x start ⟨start, []⟩ :=
  ⟨h, ⟨[], by simp, .nil⟩, List.nodup_nil⟩

theorem isPrefix_store (h : s.Built x start) : start <+: s.store := by
  obtain ⟨added, hstore, _⟩ := h.added
  exact ⟨added, hstore.symm⟩

theorem length_store (h : s.Built x start) : s.store.length = start.length + s.roots.length := by
  obtain ⟨added, hstore, hbinds⟩ := h.added
  rw [hstore, List.length_append, ← hbinds.length_eq, Extraction.roots, List.length_map]

/-- The parameter of an expression is bound to what the expression stands for. -/
theorem lookup_eq {name : String} (h : s.Built x start) (hk : s.known.lookup t = some name) :
    ∃ binding, x.bindingOf t = .ok binding ∧ s.store.lookup name = some binding := by
  obtain ⟨added, hstore, hbinds⟩ := h.added
  obtain ⟨⟨name', binding⟩, hentry, rfl, hb⟩ := exists_of_forall₂ hbinds (mem_of_lookup hk)
  refine ⟨binding, hb, lookup_of_mem h.numbered.names_nodup ?_⟩
  rw [hstore]
  exact List.mem_append_right _ hentry

/-- Every entry was there before or is the parameter of an expression. -/
theorem entry {entry : String × Binding} (h : s.Built x start) (he : entry ∈ s.store) :
    entry ∈ start ∨ ∃ t ∈ s.roots, x.bindingOf t = .ok entry.2 := by
  obtain ⟨added, hstore, hbinds⟩ := h.added
  rw [hstore, List.mem_append] at he
  refine he.imp_right fun he => ?_
  obtain ⟨known, hknown, hb⟩ := exists_of_forall₂ hbinds.flip he
  exact ⟨known.1, List.mem_map_of_mem hknown, hb.binding⟩

end Extraction.Built

namespace Extractor

variable {x : Extractor} {start store : ParameterStore} {s s' : Extraction} {site : Site}
  {run seen : List Site} {result : Except Error Expr} {e t : Expr}

theorem bindingOf_of_value {v : Value}
    (hp : x.parameterizes site.inLambda site.literal site.root = false)
    (hv : x.interpreter.evaluate site.root = .ok v) : x.bindingOf site.root = .ok (.value v) := by
  have hd : x.defers site.root = false := (Bool.or_eq_false_iff.mp hp).1
  rw [bindingOf_of_not_defers hd, hv]
  rfl

/-- Where nothing is deferred, what an expression stands for is its value. -/
theorem exists_bindingOf_iff (hd : x.defers t = false) :
    (∃ binding, x.bindingOf t = .ok binding) ↔ ∃ v, x.interpreter.evaluate t = .ok v := by
  rw [bindingOf_of_not_defers hd]
  cases x.interpreter.evaluate t <;> simp [Except.map]

theorem Places.built (h : x.Places site s result s') (hs : s.Built x start) : s'.Built x start := by
  cases h with
  | known | value | fails => exact hs
  | @new binding hp hk hb =>
    obtain ⟨added, hstore, hbinds⟩ := hs.added
    constructor
    · exact hs.numbered.add _ binding
    · refine ⟨added ++ [(x.newName site.root s.store, binding)], ?_, ?_⟩
      · have hadd : s.store.add (x.newName site.root s.store) binding =
            s.store ++ [(x.newName site.root s.store, binding)] :=
          upsert_of_lookup_none (hs.numbered.lookup_parameterName _)
        simp only [hadd]
        rw [← List.append_assoc, ← hstore]
      · exact List.rel_append hbinds (.cons ⟨rfl, hb⟩ .nil)
    · have hfresh := Extraction.notMem_roots hk
      have hnodup := hs.nodup
      unfold Extraction.roots at hfresh hnodup ⊢
      rw [List.map_append, List.nodup_append]
      refine ⟨hnodup, by simp, ?_⟩
      intro a ha b hb heq
      rw [List.map_singleton, List.mem_singleton] at hb
      subst heq hb
      exact hfresh ha

/-- A step succeeds exactly if its expression stands for something. -/
theorem Places.ok_iff (h : x.Places site s result s') (hs : s.Built x start) :
    (∃ e', result = .ok e') ↔ ∃ binding, x.bindingOf site.root = .ok binding := by
  cases h with
  | known hp hk =>
    obtain ⟨binding, hb, _⟩ := hs.lookup_eq hk
    simp [hb]
  | new hp hk hb => simp [hb]
  | value hp hv => simp [bindingOf_of_value hp hv]
  | fails hk hb => simp [hb]

/-- What every step keeps, a run keeps, whether it ends or fails. -/
theorem runSites_keeps {p : Extraction → Prop}
    (hstep : ∀ {site s result s'}, x.Places site s result s' → p s → p s') (run : List Site)
    (hs : p s) : p (x.runSites run s).2 := by
  induction run generalizing s with
  | nil => exact hs
  | cons site rest ih =>
    have hkept := hstep (x.placeAt_places site s) hs
    rw [runSites_cons]
    rcases hplace : x.placeAt site s with ⟨error | e', s₁⟩
    · rw [hplace] at hkept
      exact hkept
    · rw [hplace] at hkept
      exact ih hkept

theorem runSites_built (run : List Site) (hs : s.Built x start) :
    (x.runSites run s).2.Built x start :=
  runSites_keeps Places.built run hs

/-- A run succeeds exactly if all its expressions stand for something. -/
theorem runSites_ok_iff (run : List Site) (hs : s.Built x start) :
    (x.runSites run s).1 = .ok () ↔
      ∀ site ∈ run, ∃ binding, x.bindingOf site.root = .ok binding := by
  induction run generalizing s with
  | nil => exact iff_of_true rfl (by simp)
  | cons site rest ih =>
    have hplaces := x.placeAt_places site s
    have hbuilt := hplaces.built hs
    have hok := hplaces.ok_iff hs
    rw [runSites_cons, List.forall_mem_cons, ← hok]
    rcases hplace : x.placeAt site s with ⟨error | e', s₁⟩
    · simp
    · rw [hplace] at hbuilt
      simp [ih hbuilt]

/-! ### Parameters of a run -/

/-- The expressions that parameters replace at some sites, each once, in the order of the sites. -/
def parameterRoots (x : Extractor) (run : List Site) : List Expr :=
  ((run.filter fun site => x.parameterizes site.inLambda site.literal site.root).map
    (·.root)).eraseDups

/-- A store with a parameter for one more expression; what stands for nothing adds none. -/
def record (x : Extractor) (store : ParameterStore) (t : Expr) : ParameterStore :=
  match x.bindingOf t with
  | .ok binding => store.add (x.newName t store) binding
  | .error _ => store

theorem mem_parameterRoots : t ∈ x.parameterRoots run ↔ ∃ site ∈ run,
    x.parameterizes site.inLambda site.literal site.root = true ∧ site.root = t := by
  simp [parameterRoots, List.mem_eraseDups, and_assoc]

theorem parameterRoots_eq_nil_iff : x.parameterRoots run = [] ↔
    ∀ site ∈ run, x.parameterizes site.inLambda site.literal site.root = false := by
  simp only [List.eq_nil_iff_forall_not_mem, mem_parameterRoots, not_exists, not_and,
    Bool.eq_false_iff]
  exact ⟨fun h site hsite hp => h _ site hsite hp rfl, fun h _ site hsite hp _ => h site hsite hp⟩

theorem parameterRoots_append_known
    (h : x.parameterizes site.inLambda site.literal site.root = true →
      site.root ∈ x.parameterRoots seen) :
    x.parameterRoots (seen ++ [site]) = x.parameterRoots seen := by
  cases hp : x.parameterizes site.inLambda site.literal site.root with
  | false => simp [parameterRoots, hp]
  | true =>
    have hmem := h hp
    unfold parameterRoots at hmem ⊢
    rw [List.mem_eraseDups] at hmem
    simp [hp, List.eraseDups_append, List.cons_removeAll, hmem]

theorem parameterRoots_append_new
    (hp : x.parameterizes site.inLambda site.literal site.root = true)
    (hnew : site.root ∉ x.parameterRoots seen) :
    x.parameterRoots (seen ++ [site]) = x.parameterRoots seen ++ [site.root] := by
  unfold parameterRoots at hnew ⊢
  rw [List.mem_eraseDups] at hnew
  simp [hp, List.eraseDups_append, List.eraseDups_cons, List.cons_removeAll, hnew]

/-- A state in which some sites have been placed, starting from a store: their parameters have been
added to it in order, and all of them stand for something. -/
structure Placed (x : Extractor) (start : ParameterStore) (seen : List Site) (s : Extraction) :
    Prop where
  roots : s.roots = x.parameterRoots seen
  store : s.store = (x.parameterRoots seen).foldl x.record start
  bound : ∀ site ∈ seen, ∃ binding, x.bindingOf site.root = .ok binding

namespace Placed

theorem empty (start : ParameterStore) : Placed x start [] ⟨start, []⟩ := ⟨rfl, rfl, nofun⟩

theorem mem_roots (h : Placed x start seen s) (hsite : site ∈ seen)
    (hp : x.parameterizes site.inLambda site.literal site.root = true) : site.root ∈ s.roots := by
  rw [h.roots, mem_parameterRoots]
  exact ⟨site, hsite, hp, rfl⟩

theorem exists_value (h : Placed x start seen s) (hsite : site ∈ seen)
    (hp : x.parameterizes site.inLambda site.literal site.root = false) :
    ∃ v, x.interpreter.evaluate site.root = .ok v := by
  have hd : x.defers site.root = false := (Bool.or_eq_false_iff.mp hp).1
  exact (exists_bindingOf_iff hd).mp (h.bound site hsite)

/-- A site that stands for something already known, or for a value, leaves the state as it is. -/
theorem keep (h : Placed x start seen s) (hbound : ∃ binding, x.bindingOf site.root = .ok binding)
    (hknown : x.parameterizes site.inLambda site.literal site.root = true →
      site.root ∈ x.parameterRoots seen) : Placed x start (seen ++ [site]) s := by
  have hroots := parameterRoots_append_known hknown
  refine ⟨h.roots.trans hroots.symm, hroots ▸ h.store, ?_⟩
  rw [List.forall_mem_append, List.forall_mem_singleton]
  exact ⟨h.bound, hbound⟩

theorem step {e' : Expr} (h : Placed x start seen s) (hplaces : x.Places site s (.ok e') s') :
    Placed x start (seen ++ [site]) s' := by
  cases hplaces with
  | @known name hp hk =>
    have hknown : site.root ∈ x.parameterRoots seen :=
      h.roots ▸ Extraction.mem_roots_iff.mpr ⟨name, hk⟩
    obtain ⟨earlier, hearlier, _, hroot⟩ := mem_parameterRoots.mp hknown
    exact h.keep (hroot ▸ h.bound earlier hearlier) fun _ => hknown
  | value hp hv => exact h.keep ⟨_, bindingOf_of_value hp hv⟩ (by simp [hp])
  | @new binding hp hk hb =>
    have hnew : site.root ∉ x.parameterRoots seen := h.roots ▸ Extraction.notMem_roots hk
    have hroots := parameterRoots_append_new hp hnew
    constructor
    · rw [hroots, ← h.roots]
      simp [Extraction.roots]
    · rw [hroots, List.foldl_append, ← h.store]
      simp [record, hb]
    · rw [List.forall_mem_append, List.forall_mem_singleton]
      exact ⟨h.bound, binding, hb⟩

end Placed

/-- A run places all its sites, or all sites up to one that stands for nothing. -/
theorem runSites_placed (run : List Site) (hs : Placed x start seen s) :
    (∃ s', x.runSites run s = (.ok (), s') ∧ Placed x start (seen ++ run) s') ∨
    ∃ before site after cause s', run = before ++ site :: after ∧
      x.runSites run s = (.error (x.fault site.root cause), s') ∧
      x.bindingOf site.root = .error cause ∧ Placed x start (seen ++ before) s' := by
  induction run generalizing seen s with
  | nil => exact .inl ⟨s, rfl, by rwa [List.append_nil]⟩
  | cons site rest ih =>
    have hplaces := x.placeAt_places site s
    rw [runSites_cons]
    rcases hplace : x.placeAt site s with ⟨error | e', s₁⟩
    · rw [hplace] at hplaces
      cases hplaces with
      | @fails cause hk hb =>
        exact .inr ⟨[], site, rest, cause, _, rfl, rfl, hb, by rwa [List.append_nil]⟩
    · rw [hplace] at hplaces
      have hseen : seen ++ site :: rest = seen ++ [site] ++ rest := by simp
      rcases ih (hs.step hplaces) with
        ⟨s', hrun, hs'⟩ | ⟨before, failing, after, cause, s', rfl, hrest⟩
      · exact .inl ⟨s', hrun, hseen ▸ hs'⟩
      · obtain ⟨hrun, hb, hs'⟩ := hrest
        refine .inr ⟨site :: before, failing, after, cause, s', rfl, hrun, hb, ?_⟩
        simpa using hs'

theorem placements_placed (x : Extractor) (e : Expr) (store : ParameterStore) :
    ((x.placements e store).1 = .ok () ∧
      Placed x store (x.sites false false e) (x.placements e store).2) ∨
    ∃ before site after cause, x.sites false false e = before ++ site :: after ∧
      (x.placements e store).1 = .error (x.fault site.root cause) ∧
      x.bindingOf site.root = .error cause ∧ Placed x store before (x.placements e store).2 := by
  unfold placements
  rcases runSites_placed (x.sites false false e) (.empty (x := x) store) with
    ⟨s', hrun, hs'⟩ | ⟨before, site, after, cause, s', hsites, hrun, hb, hs'⟩
  · rw [hrun]
    exact .inl ⟨rfl, hs'⟩
  · rw [hrun]
    exact .inr ⟨before, site, after, cause, hsites, rfl, hb, hs'⟩

/-! ### Whole extractions -/

theorem placements_built (e : Expr) (h : store.Numbered) :
    (x.placements e store).2.Built x store :=
  runSites_built _ (.empty h)

theorem placed_of_ok (h : (x.placements e store).1 = .ok ()) :
    Placed x store (x.sites false false e) (x.placements e store).2 := by
  rcases placements_placed x e store with ⟨_, hs⟩ | ⟨_, _, _, _, _, herror, _⟩
  · exact hs
  · rw [h] at herror
    cases herror

theorem exists_site_of_mem_roots (h : t ∈ (x.placements e store).2.roots) :
    ∃ site ∈ x.sites false false e,
      x.parameterizes site.inLambda site.literal site.root = true ∧ site.root = t := by
  rcases placements_placed x e store with ⟨_, hs⟩ | ⟨before, _, _, _, hsites, _, _, hs⟩
  · rwa [hs.roots, mem_parameterRoots] at h
  · rw [hs.roots, mem_parameterRoots] at h
    obtain ⟨site, hsite, ht⟩ := h
    exact ⟨site, hsites ▸ List.mem_append_left _ hsite, ht⟩

/-- An extraction succeeds exactly if all maximal subexpressions that move stand for something. -/
theorem extract_ok_iff (e : Expr) (h : store.Numbered) :
    (∃ e', (x.extract e store).1 = .ok e') ↔
      ∀ t ∈ x.maximal e, ∃ binding, x.bindingOf t = .ok binding := by
  have hrun := runSites_ok_iff (x.sites false false e) (Extraction.Built.empty (x := x) h)
  have hok : (∃ e', (x.extract e store).1 = .ok e') ↔ (x.placements e store).1 = .ok () := by
    rw [extract_eq]
    cases (x.placements e store).1 <;> simp [Except.map]
  rw [hok, placements, hrun]
  constructor
  · intro hall t ht
    obtain ⟨site, hsite, rfl⟩ := mem_maximal_iff.mp ht
    exact hall site hsite
  · intro hall site hsite
    exact hall site.root (mem_maximal_iff.mpr ⟨site, hsite, rfl⟩)

/-- The result of an extraction is the expression with its sites replaced. -/
theorem eq_shape_of_extract {e' : Expr} (h : (x.extract e store).1 = .ok e') :
    (x.placements e store).1 = .ok () ∧ e' = x.shape (x.placements e store).2 e := by
  rw [extract_eq] at h
  cases hrun : (x.placements e store).1 with
  | error error =>
    rw [hrun] at h
    cases h
  | ok u =>
    rw [hrun] at h
    exact ⟨rfl, (Except.ok.inj h).symm⟩

/-- What stands in the place of a site after a whole extraction: a parameter that is bound to what
the site stands for, or its value. -/
theorem put_cases (hstore : store.Numbered) (hrun : (x.placements e store).1 = .ok ()) {site : Site}
    (hsite : site ∈ x.sites false false e) :
    (x.parameterizes site.inLambda site.literal site.root = true ∧ ∃ name binding,
      x.put (x.placements e store).2 site.inLambda site.literal site.root = .parameter name ∧
      x.bindingOf site.root = .ok binding ∧
      (x.placements e store).2.store.lookup name = some binding) ∨
    (x.parameterizes site.inLambda site.literal site.root = false ∧ x.defers site.root = false ∧
      x.put (x.placements e store).2 site.inLambda site.literal site.root =
        x.valueOf site.root) := by
  cases hp : x.parameterizes site.inLambda site.literal site.root with
  | true =>
    have hknown := (placed_of_ok hrun).mem_roots hsite hp
    obtain ⟨name, hname⟩ := Extraction.mem_roots_iff.mp hknown
    obtain ⟨binding, hb, hlookup⟩ := (placements_built e hstore).lookup_eq hname
    exact .inl ⟨rfl, name, binding, put_of_known hp hname, hb, hlookup⟩
  | false => exact .inr ⟨rfl, (Bool.or_eq_false_iff.mp hp).1, put_of_value hp⟩

/-- A condition on nodes holds after a replacement if it holds of all that is put in. -/
theorem replaceMaximal_throughout {p : List String → Expr → Prop} (hp : Expr.HeadRule p)
    {put : Bool → Bool → Expr → Expr} {inLambda literal : Bool} {scope : List String}
    (h : e.Throughout p scope) (hput : ∀ site ∈ x.sites inLambda literal e, ∀ scope,
      (put site.inLambda site.literal site.root).Throughout p scope) :
    (x.replaceMaximal put inLambda literal e).Throughout p scope := by
  induction e using Expr.byChildren generalizing scope inLambda literal with
  | step e ih =>
    cases hm : x.movable e with
    | true =>
      rw [replaceMaximal_of_movable hm]
      exact hput ⟨inLambda, literal, e⟩ (by simp [sites_of_movable hm]) scope
    | false =>
      rw [replaceMaximal_of_not hm]
      apply hp.throughout_withChildren h.node (List.length_map _)
      intro c hc
      obtain ⟨d, hd, rfl⟩ := List.mem_map.mp hc
      apply ih d hd (h.child hd)
      intro site hsite
      exact hput site ((mem_sites_of_not hm).mpr ⟨d, hd, hsite⟩)

/-- A condition on nodes holds of the result of an extraction if it holds of the expression and
allows the parameters that are known in the end. -/
theorem extract_throughout {p : List String → Expr → Prop} (hp : Expr.HeadRule p)
    {scope : List String} {e' : Expr} (h : e.Throughout p scope)
    (hparameter : ∀ scope root name, (x.placements e store).2.known.lookup root = some name →
      p scope (.parameter name)) (hok : (x.extract e store).1 = .ok e') :
    e'.Throughout p scope := by
  obtain ⟨hrun, rfl⟩ := eq_shape_of_extract hok
  have hput : ∀ site ∈ x.sites false false e, ∀ scope,
      (x.put (x.placements e store).2 site.inLambda site.literal site.root).Throughout p scope := by
    intro site hsite scope
    cases hsort : x.parameterizes site.inLambda site.literal site.root with
    | true =>
      have hknown := (placed_of_ok hrun).mem_roots hsite hsort
      obtain ⟨name, hname⟩ := Extraction.mem_roots_iff.mp hknown
      rw [put_of_known hsort hname, Expr.throughout_iff_children]
      exact ⟨hparameter scope site.root name hname, by simp [Expr.children]⟩
    | false =>
      obtain ⟨v, hv⟩ := (placed_of_ok hrun).exists_value hsite hsort
      rw [put_of_value hsort, valueOf_of_ok hv]
      exact hp.throughout_constant v
  exact replaceMaximal_throughout hp h hput

end Extractor

end QueryTree
