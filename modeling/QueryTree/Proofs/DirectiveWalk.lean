import QueryTree.Proofs.Compilation

/-! The walk that moves directives. It meets every model that the root leads to once, and a model
after its subqueries, also where subqueries are shared or lead back to the model; hence every
directive is recorded once, those of subqueries first, and the models keep everything else. -/

namespace QueryTree

namespace Arena

variable {a b : Arena} {root k j : ModelId} {pending rest : List (ModelId × Bool)}
  {seen ids : List ModelId}

/-! ### Reachable models -/

theorem Reaches.refl (k : ModelId) : a.Reaches k k := ⟨_, .start⟩

theorem Reaches.step (h : a.Reaches root k) (hr : a.Refers k j) : a.Reaches root j := by
  obtain ⟨path, hp⟩ := h
  exact ⟨_, hp.step hr⟩

theorem Reaches.trans (h : a.Reaches root k) (hk : a.Reaches k j) : a.Reaches root j := by
  obtain ⟨path, hp⟩ := hk
  induction hp with
  | start => exact h
  | step _ hr ih => exact ih.step hr

/-- What is closed under references holds of all models that are reached. -/
theorem Reaches.closed {P : ModelId → Prop} (h : a.Reaches root k) (hroot : P root)
    (hstep : ∀ k j, P k → a.Refers k j → P j) : P k := by
  obtain ⟨path, hp⟩ := h
  induction hp with
  | start => exact hroot
  | step _ hr ih => exact hstep _ _ ih hr

/-- All models that `root` leads to are there, and so are their sources. -/
def Resolves (a : Arena) (root : ModelId) : Prop :=
  ∀ k, a.Reaches root k →
    ∃ m, a.model? k = some m ∧ ∀ s ∈ m.declaredSources, s < a.sources.length

theorem Resolves.referencedSubqueries (h : a.Resolves root) (hk : a.Reaches root k) :
    ∃ ms, a.referencedSubqueries k = .ok ms := by
  obtain ⟨m, hm, hs⟩ := h k hk
  obtain ⟨es, hes⟩ := (exists_modelExpressions_iff hm).mpr hs
  exact ⟨_, referencedSubqueries_of hes⟩

/-! ### Pending models -/

/-- What holds of the pending models of a walk. An open model, that is one whose subqueries are
pending or done, was seen. It leads to everything that is pending above it, and what it refers to
was seen or is pending above it. -/
structure Walks (a : Arena) (pending : List (ModelId × Bool)) (seen : List ModelId) : Prop where
  opened : ∀ k, (k, true) ∈ pending → k ∈ seen
  leads : pending.Pairwise fun above p => p.2 = true → above ≠ p ∧ a.Reaches p.1 above.1
  refers : ∀ k j, (k, true) ∈ pending → a.Refers k j →
    j ∈ seen ∨ [(j, false), (k, true)].Sublist pending

theorem walks_start (root : ModelId) : a.Walks [(root, false)] [] where
  opened k hk := by simp at hk
  leads := List.pairwise_singleton _ _
  refers k j hk := by simp at hk

theorem Walks.drop {flag : Bool} (h : a.Walks ((k, flag) :: rest) seen) (hk : k ∈ seen) :
    a.Walks rest seen where
  opened i hi := h.opened i (List.mem_cons_of_mem _ hi)
  leads := (List.pairwise_cons.mp h.leads).2
  refers i j hi hr := by
    rcases h.refers i j (List.mem_cons_of_mem _ hi) hr with hj | hj
    · exact .inl hj
    · rcases List.sublist_cons_iff.mp hj with hj | ⟨_, heq, _⟩
      · exact .inr hj
      · obtain ⟨rfl, -⟩ := Prod.mk.inj (List.cons.inj heq).1
        exact .inl hk

/-- A model that is met for the first time is opened, with its subqueries above it. -/
theorem Walks.expand {ms : List ModelId} (h : a.Walks ((k, false) :: rest) seen) (hk : k ∉ seen)
    (hms : a.referencedSubqueries k = .ok ms) :
    a.Walks (ms.map (·, false) ++ (k, true) :: rest) (k :: seen) where
  opened i hi := by
    rcases List.mem_append.mp hi with hi | hi
    · simp at hi
    · rcases List.mem_cons.mp hi with heq | hi
      · simp [(Prod.mk.inj heq).1]
      · exact List.mem_cons_of_mem _ (h.opened i (List.mem_cons_of_mem _ hi))
  leads := by
    obtain ⟨hhead, hrest⟩ := List.pairwise_cons.mp h.leads
    have hsub : ∀ p ∈ ms.map (·, false), a.Refers k p.1 := by
      intro p hp
      obtain ⟨j, hj, rfl⟩ := List.mem_map.mp hp
      exact ⟨ms, hms, hj⟩
    rw [List.pairwise_append, List.pairwise_cons]
    refine ⟨?_, ⟨?_, hrest⟩, ?_⟩
    · refine List.pairwise_map.mpr (List.pairwise_of_forall ?_)
      exact fun _ _ hflag => nomatch hflag
    · intro p hp hflag
      refine ⟨?_, (hhead p hp hflag).2⟩
      rintro rfl
      exact hk (h.opened k (List.mem_cons_of_mem _ hp))
    · intro above habove p hp hflag
      refine ⟨?_, ?_⟩
      · rintro rfl
        obtain ⟨_, _, rfl⟩ := List.mem_map.mp habove
        cases hflag
      · rcases List.mem_cons.mp hp with rfl | hp
        · exact (Reaches.refl k).step (hsub above habove)
        · exact (hhead p hp hflag).2.step (hsub above habove)
  refers i j hi hr := by
    rcases List.mem_append.mp hi with hi | hi
    · simp at hi
    rcases List.mem_cons.mp hi with heq | hi
    · obtain ⟨rfl, -⟩ := Prod.mk.inj heq
      obtain ⟨ms', hms', hj⟩ := hr
      obtain rfl := Except.ok.inj (hms.symm.trans hms')
      have habove : [(j, false)].Sublist (ms.map (·, false)) :=
        List.singleton_sublist.mpr (List.mem_map_of_mem hj)
      exact .inr (habove.append (List.singleton_sublist.mpr List.mem_cons_self))
    · rcases h.refers i j (List.mem_cons_of_mem _ hi) hr with hj | hj
      · exact .inl (List.mem_cons_of_mem _ hj)
      · rcases List.sublist_cons_iff.mp hj with hj | ⟨_, heq, _⟩
        · exact .inr ((hj.cons _).trans (List.sublist_append_right _ _))
        · obtain ⟨rfl, -⟩ := Prod.mk.inj (List.cons.inj heq).1
          exact .inl List.mem_cons_self

/-! ### The order of the walk -/

/-- What a walk from pending models lists. A model that refers to another comes after it, unless the
other was done before or leads back to the model. -/
structure Lists (a : Arena) (pending : List (ModelId × Bool)) (seen ids : List ModelId) : Prop where
  nodup : ids.Nodup
  fresh : ∀ k ∈ ids, (k, true) ∈ pending ∨ k ∉ seen
  reached : ∀ k ∈ ids, ∃ p ∈ pending, a.Reaches p.1 k
  opened : ∀ k, (k, true) ∈ pending → k ∈ ids
  found : ∀ p ∈ pending, p.1 ∈ seen ∨ p.1 ∈ ids
  closed : ∀ k ∈ ids, ∀ j, a.Refers k j → j ∈ seen ∨ j ∈ ids
  after : ∀ k ∈ ids, ∀ j, a.Refers k j → ¬ a.Reaches j k →
    (j ∈ seen ∧ (j, true) ∉ pending) ∨ [j, k].Sublist ids

theorem lists_nil : a.Lists [] seen [] where
  nodup := .nil
  fresh := nofun
  reached := nofun
  opened := nofun
  found := nofun
  closed := nofun
  after := nofun

theorem Lists.done (hw : a.Walks ((k, true) :: rest) seen) (h : a.Lists rest seen ids) :
    a.Lists ((k, true) :: rest) seen (k :: ids) := by
  have hseen : k ∈ seen := hw.opened k List.mem_cons_self
  have hrest : (k, true) ∉ rest := by
    intro hk
    exact ((List.pairwise_cons.mp hw.leads).1 _ hk rfl).1 rfl
  have hrefers : ∀ j, a.Refers k j → j ∈ seen := by
    intro j hr
    rcases hw.refers k j List.mem_cons_self hr with hj | hj
    · exact hj
    · rcases List.sublist_cons_iff.mp hj with hj | ⟨_, heq, _⟩
      · exact absurd (hj.subset (by simp)) hrest
      · cases (List.cons.inj heq).1
  exact {
    nodup := by
      refine List.nodup_cons.mpr ⟨fun hk => ?_, h.nodup⟩
      exact (h.fresh k hk).elim hrest fun hfresh => hfresh hseen
    fresh := by
      intro i hi
      rcases List.mem_cons.mp hi with rfl | hi
      · exact .inl List.mem_cons_self
      · exact (h.fresh i hi).imp_left (List.mem_cons_of_mem _)
    reached := by
      intro i hi
      rcases List.mem_cons.mp hi with rfl | hi
      · exact ⟨_, List.mem_cons_self, .refl _⟩
      · obtain ⟨p, hp, hreach⟩ := h.reached i hi
        exact ⟨p, List.mem_cons_of_mem _ hp, hreach⟩
    opened := by
      intro i hi
      rcases List.mem_cons.mp hi with heq | hi
      · simp [(Prod.mk.inj heq).1]
      · exact List.mem_cons_of_mem _ (h.opened i hi)
    found := by
      intro p hp
      rcases List.mem_cons.mp hp with rfl | hp
      · exact .inl hseen
      · exact (h.found p hp).imp_right (List.mem_cons_of_mem _)
    closed := by
      intro i hi j hr
      rcases List.mem_cons.mp hi with rfl | hi
      · exact .inl (hrefers j hr)
      · exact (h.closed i hi j hr).imp_right (List.mem_cons_of_mem _)
    after := by
      intro i hi j hr hback
      rcases List.mem_cons.mp hi with rfl | hin
      · refine .inl ⟨hrefers j hr, fun hj => hback ?_⟩
        -- an open model leads to everything above it
        rcases List.mem_cons.mp hj with heq | hj
        · obtain ⟨rfl, -⟩ := Prod.mk.inj heq
          exact .refl _
        · exact ((List.pairwise_cons.mp hw.leads).1 _ hj rfl).2
      · rcases h.after i hin j hr hback with ⟨hj, hopen⟩ | hj
        · by_cases heq : j = k
          · subst heq
            exact .inr (List.cons_sublist_cons.mpr (List.singleton_sublist.mpr hin))
          · exact .inl ⟨hj, by simp [heq, hopen]⟩
        · exact .inr (hj.cons _) }

theorem Lists.skip (hk : k ∈ seen) (h : a.Lists rest seen ids) :
    a.Lists ((k, false) :: rest) seen ids where
  nodup := h.nodup
  fresh i hi := (h.fresh i hi).imp_left (List.mem_cons_of_mem _)
  reached i hi := by
    obtain ⟨p, hp, hreach⟩ := h.reached i hi
    exact ⟨p, List.mem_cons_of_mem _ hp, hreach⟩
  opened i hi := h.opened i (by simpa using hi)
  found := List.forall_mem_cons.mpr ⟨.inl hk, h.found⟩
  closed := h.closed
  after i hi j hr hback := (h.after i hi j hr hback).imp_left fun hj => by simpa using hj

theorem Lists.expand {ms : List ModelId} (hk : k ∉ seen) (hms : a.referencedSubqueries k = .ok ms)
    (h : a.Lists (ms.map (·, false) ++ (k, true) :: rest) (k :: seen) ids) :
    a.Lists ((k, false) :: rest) seen ids := by
  have hmem : ∀ i, (i, true) ∈ ms.map (·, false) ++ (k, true) :: rest ↔
      i = k ∨ (i, true) ∈ rest := by
    simp
  have hlisted : k ∈ ids := h.opened k ((hmem k).mpr (.inl rfl))
  exact {
    nodup := h.nodup
    fresh := by
      intro i hi
      rcases h.fresh i hi with hopen | hfresh
      · rcases (hmem i).mp hopen with rfl | hopen
        · exact .inr hk
        · exact .inl (List.mem_cons_of_mem _ hopen)
      · exact .inr fun hin => hfresh (List.mem_cons_of_mem _ hin)
    reached := by
      intro i hi
      obtain ⟨p, hp, hreach⟩ := h.reached i hi
      rcases List.mem_append.mp hp with hp | hp
      · obtain ⟨j, hj, rfl⟩ := List.mem_map.mp hp
        exact ⟨_, List.mem_cons_self, ((Reaches.refl k).step ⟨ms, hms, hj⟩).trans hreach⟩
      · rcases List.mem_cons.mp hp with rfl | hp
        · exact ⟨_, List.mem_cons_self, hreach⟩
        · exact ⟨p, List.mem_cons_of_mem _ hp, hreach⟩
    opened := fun i hi => h.opened i ((hmem i).mpr (.inr (by simpa using hi)))
    found := by
      refine List.forall_mem_cons.mpr ⟨.inr hlisted, fun p hp => ?_⟩
      rcases h.found p (by simp [hp]) with hseen | hin
      · rcases List.mem_cons.mp hseen with heq | hseen
        · exact .inr (heq ▸ hlisted)
        · exact .inl hseen
      · exact .inr hin
    closed := by
      intro i hi j hr
      rcases h.closed i hi j hr with hj | hj
      · rcases List.mem_cons.mp hj with rfl | hj
        · exact .inr hlisted
        · exact .inl hj
      · exact .inr hj
    after := by
      intro i hi j hr hback
      rcases h.after i hi j hr hback with ⟨hj, hopen⟩ | hj
      · have hne : ¬ (j = k ∨ (j, true) ∈ rest) := fun hor => hopen ((hmem j).mpr hor)
        rw [not_or] at hne
        exact .inl ⟨(List.mem_cons.mp hj).resolve_left hne.1, by simpa using hne.2⟩
      · exact .inr hj }

theorem postorderFrom_lists (hw : a.Walks pending seen)
    (hok : (a.postorderFrom pending seen).2 = none) :
    a.Lists pending seen (a.postorderFrom pending seen).1 := by
  fun_induction Arena.postorderFrom a pending seen with
  | case1 => exact lists_nil
  | case2 seen id rest ids error heq ih =>
    have hrest := ih (hw.drop (hw.opened id List.mem_cons_self)) (by rw [heq]; exact hok)
    rw [heq] at hrest
    exact hrest.done hw
  | case3 seen id rest hid ih => exact (ih (hw.drop hid) hok).skip hid
  | case4 => cases hok
  | case5 seen id rest hid ms hms ih => exact (ih (hw.expand hid hms) hok).expand hid hms

theorem postorderFrom_error (h : ∀ p ∈ pending, a.Resolves p.1) :
    (a.postorderFrom pending seen).2 = none := by
  fun_induction Arena.postorderFrom a pending seen with
  | case1 => rfl
  | case2 seen id rest ids error heq ih =>
    have hrest := ih fun p hp => h p (List.mem_cons_of_mem _ hp)
    rwa [heq] at hrest
  | case3 seen id rest hid ih => exact ih fun p hp => h p (List.mem_cons_of_mem _ hp)
  | case4 seen id rest hid error herr =>
    obtain ⟨ms, hms⟩ := (h _ List.mem_cons_self).referencedSubqueries (Reaches.refl id)
    cases herr.symm.trans hms
  | case5 seen id rest hid ms hms ih =>
    have hresolves : a.Resolves id := h _ List.mem_cons_self
    refine ih fun p hp => ?_
    rcases List.mem_append.mp hp with hp | hp
    · obtain ⟨j, hj, rfl⟩ := List.mem_map.mp hp
      intro k hk
      exact hresolves k (((Reaches.refl id).step ⟨ms, hms, hj⟩).trans hk)
    · rcases List.mem_cons.mp hp with rfl | hp
      · exact hresolves
      · exact h p (List.mem_cons_of_mem _ hp)

/-- What a walk lists without breaking off can be read, apart from what was open at its start. -/
theorem postorderFrom_readable (hok : (a.postorderFrom pending seen).2 = none) :
    ∀ k ∈ (a.postorderFrom pending seen).1,
      (k, true) ∈ pending ∨ ∃ ms, a.referencedSubqueries k = .ok ms := by
  fun_induction Arena.postorderFrom a pending seen with
  | case1 => simp
  | case2 seen id rest ids error heq ih =>
    rw [heq] at ih
    refine List.forall_mem_cons.mpr ⟨.inl List.mem_cons_self, fun k hk => ?_⟩
    exact (ih hok k hk).imp_left (List.mem_cons_of_mem _)
  | case3 seen id rest hid ih =>
    intro k hk
    exact (ih hok k hk).imp_left (List.mem_cons_of_mem _)
  | case4 => simp
  | case5 seen id rest hid ms hms ih =>
    intro k hk
    rcases ih hok k hk with hopen | hread
    · rcases List.mem_append.mp hopen with hopen | hopen
      · simp at hopen
      rcases List.mem_cons.mp hopen with heq | hopen
      · obtain ⟨rfl, -⟩ := Prod.mk.inj heq
        exact .inr ⟨ms, hms⟩
      · exact .inl (List.mem_cons_of_mem _ hopen)
    · exact .inr hread

/-- A walk that does not break off lists what the root leads to, each model once and after its
subqueries. -/
structure Postorder (a : Arena) (root : ModelId) (ids : List ModelId) : Prop where
  nodup : ids.Nodup
  mem_iff : ∀ k, k ∈ ids ↔ a.Reaches root k
  after : ∀ k j, a.Reaches root k → a.Refers k j → ¬ a.Reaches j k → [j, k].Sublist ids
  readable : ∀ k ∈ ids, ∃ ms, a.referencedSubqueries k = .ok ms

theorem postorder_of_none (hok : (a.postorder root).2 = none) :
    a.Postorder root (a.postorder root).1 := by
  have hlists : a.Lists [(root, false)] [] (a.postorder root).1 :=
    postorderFrom_lists (walks_start root) hok
  have hmem : ∀ k, k ∈ (a.postorder root).1 ↔ a.Reaches root k := by
    intro k
    constructor
    · intro hk
      obtain ⟨p, hp, hreach⟩ := hlists.reached k hk
      obtain rfl := List.mem_singleton.mp hp
      exact hreach
    · intro hk
      apply hk.closed
      · exact (hlists.found _ List.mem_cons_self).resolve_left List.not_mem_nil
      · intro k j hin hr
        exact (hlists.closed k hin j hr).resolve_left List.not_mem_nil
  refine ⟨hlists.nodup, hmem, fun k j hk hr hback => ?_, fun k hk => ?_⟩
  · exact (hlists.after k ((hmem k).mpr hk) j hr hback).resolve_left fun hj => List.not_mem_nil hj.1
  · exact (postorderFrom_readable hok k hk).resolve_left (by simp)

theorem Resolves.postorder (h : a.Resolves root) : (a.postorder root).2 = none := by
  apply postorderFrom_error
  intro p hp
  obtain rfl := List.mem_singleton.mp hp
  exact h

end Arena

end QueryTree
