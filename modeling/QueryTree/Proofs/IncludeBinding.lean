import Mathlib.Data.List.Basic
import QueryTree.Include.Plan

/-! How include paths bind. A path leads from the entities of a source along navigations that the
entity types have; it binds to one list of navigations at most, and its parts bind to the parts of
that list. The includes of a query are bound in their order, up to the first that cannot be. -/

namespace QueryTree.Include

/-- From an entity type, a path of names leads along navigations whose targets are all known. -/
inductive LeadsAlong (find : EntityLookup) : EntityType → List String → List Navigation → Prop where
  | stay (e : EntityType) : LeadsAlong find e [] []
  | move {e target : EntityType} {name : String} {n : Navigation} {names : List String}
      {ns : List Navigation} (hn : e.navigation? name = some n) (ht : find n.target = some target)
      (h : LeadsAlong find target names ns) : LeadsAlong find e (name :: names) (n :: ns)

/-- From the entities of a source, a path that is not empty leads along navigations. -/
def Binds (a : Arena) (find : EntityLookup) (s : SourceId) (path : List String)
    (ns : List Navigation) : Prop :=
  path ≠ [] ∧ ∃ type e, a.entityType? s = some type ∧ find type = some e ∧ LeadsAlong find e path ns

/-- From the entities of a source, a path leads to a navigation, the last one along it. -/
def EndsIn (a : Arena) (find : EntityLookup) (s : SourceId) (path : List String) (n : Navigation) :
    Prop :=
  ∃ front, Binds a find s path (front ++ [n])

variable {a : Arena} {find : EntityLookup} {e : EntityType} {s : SourceId} {path : List String}
  {ns ms : List Navigation} {n m : Navigation}

/-! ### Paths -/

theorem leadsAlong_iff : LeadsAlong find e path ns ↔ bindPath find e path = some ns := by
  constructor
  · intro h
    induction h with
    | stay e => rfl
    | move hn ht _ ih => simp [bindPath, hn, ht, ih]
  · intro h
    induction path generalizing e ns with
    | nil =>
      obtain rfl := Option.some.inj h
      exact .stay e
    | cons name names ih =>
      simp only [bindPath, Option.bind_eq_bind, Option.bind_eq_some_iff, Option.some.injEq] at h
      obtain ⟨n, hn, target, ht, rest, hrest, rfl⟩ := h
      exact .move hn ht (ih hrest)

theorem LeadsAlong.names (h : LeadsAlong find e path ns) : ns.map (·.name) = path := by
  induction h with
  | stay e => rfl
  | move hn _ _ ih =>
    have hname := List.find?_some hn
    rw [List.map_cons, ih, eq_of_beq hname]

theorem LeadsAlong.front (h : LeadsAlong find e path (ns ++ ms)) :
    LeadsAlong find e (ns.map (·.name)) ns := by
  induction ns generalizing e path with
  | nil => exact .stay e
  | cons n ns ih =>
    cases h with
    | move hn ht h =>
      have hname := List.find?_some hn
      rw [List.map_cons, eq_of_beq hname]
      exact .move hn ht (ih h)

theorem Binds.names (h : Binds a find s path ns) : ns.map (·.name) = path := by
  obtain ⟨-, _, _, -, -, h⟩ := h
  exact h.names

theorem Binds.ne_nil (h : Binds a find s path ns) : ns ≠ [] := by
  intro hnil
  have hnames := h.names
  rw [hnil] at hnames
  exact h.1 hnames.symm

theorem Binds.unique (h : Binds a find s path ns) (h' : Binds a find s path ms) : ns = ms := by
  obtain ⟨-, type, e, htype, he, h⟩ := h
  obtain ⟨-, type', e', htype', he', h'⟩ := h'
  obtain rfl : type = type' := Option.some.inj (htype.symm.trans htype')
  obtain rfl : e = e' := Option.some.inj (he.symm.trans he')
  exact Option.some.inj ((leadsAlong_iff.mp h).symm.trans (leadsAlong_iff.mp h'))

theorem Binds.front (h : Binds a find s path (ns ++ ms)) (hns : ns ≠ []) :
    Binds a find s (ns.map (·.name)) ns := by
  obtain ⟨-, type, e, htype, he, h⟩ := h
  exact ⟨by simp [hns], type, e, htype, he, h.front⟩

/-- The first name of a bound path leads to the first navigation along it. -/
theorem Binds.first (h : Binds a find s path ns) (n : Navigation) :
    EndsIn a find s (path.take 1) (ns.headD n) := by
  rw [← h.names]
  cases ns with
  | nil => exact absurd rfl h.ne_nil
  | cons m ms =>
    have hone : Binds a find s path ([m] ++ ms) := h
    exact ⟨[], hone.front (by simp)⟩

theorem EndsIn.unique (h : EndsIn a find s path n) (h' : EndsIn a find s path m) : n = m := by
  obtain ⟨front, h⟩ := h
  obtain ⟨front', h'⟩ := h'
  exact (List.concat_inj.mp (by simpa using h.unique h')).2

theorem EndsIn.ne_nil (h : EndsIn a find s path n) : path ≠ [] := by
  obtain ⟨_, h⟩ := h
  exact h.1

/-! ### Includes -/

theorem bound?_eq_some_iff {b : BoundInclude} : bound? a find s path = some b ↔
    Binds a find s path b.navigations ∧ b.source = s ∧ a.entityType? s = some b.entityType := by
  constructor
  · intro h
    simp only [bound?, Option.bind_eq_bind, Option.bind_eq_some_iff] at h
    obtain ⟨type, htype, e, he, ns, hns, h⟩ := h
    split at h
    next => cases h
    next hempty =>
      obtain rfl := Option.some.inj h
      have hleads := leadsAlong_iff.mpr hns
      refine ⟨⟨?_, type, e, htype, he, hleads⟩, rfl, htype⟩
      intro hpath
      rw [hpath] at hns
      obtain rfl := Option.some.inj hns
      exact hempty rfl
  · rintro ⟨hbinds, hsource, htype⟩
    have hne := hbinds.ne_nil
    obtain ⟨-, type, e, htype', he, h⟩ := hbinds
    obtain rfl : type = b.entityType := Option.some.inj (htype'.symm.trans htype)
    subst hsource
    simp only [bound?, Option.bind_eq_bind]
    rw [htype, Option.bind_some, he, Option.bind_some, leadsAlong_iff.mp h, Option.bind_some,
      if_neg (by simpa using hne)]

theorem exists_bound? (h : Binds a find s path ns) :
    ∃ b, bound? a find s path = some b ∧ b.source = s ∧ b.navigations = ns := by
  obtain ⟨_, type, e, htype, _⟩ := id h
  exact ⟨⟨s, type, ns⟩, bound?_eq_some_iff.mpr ⟨h, rfl, htype⟩, rfl, rfl⟩

theorem bound?_eq_none_iff : bound? a find s path = none ↔ ¬∃ ns, Binds a find s path ns := by
  constructor
  · rintro h ⟨ns, hbinds⟩
    obtain ⟨b, hb, -⟩ := exists_bound? hbinds
    rw [h] at hb
    cases hb
  · intro h
    cases hb : bound? a find s path with
    | none => rfl
    | some b => exact absurd ⟨b.navigations, (bound?_eq_some_iff.mp hb).1⟩ h

abbrev Asked := AppliedDirective × List String

/-- An include on a source of the result whose path does not bind. -/
def Unbound (a : Arena) (find : EntityLookup) (results : List SourceId) (i : Asked) : Prop :=
  i.1.source ∈ results ∧ ¬∃ ns, Binds a find i.1.source i.2 ns

/-- An include on a source of the result that binds, with no collection before its last
navigation. -/
def Planned (a : Arena) (find : EntityLookup) (results : List SourceId) (i : Asked)
    (ns : List Navigation) : Prop :=
  i.1.source ∈ results ∧ Binds a find i.1.source i.2 ns ∧ ∀ n ∈ ns.dropLast, n.isCollection = false

variable {results : List SourceId} {includes : List Asked}

def fails (a : Arena) (find : EntityLookup) (results : List SourceId) (i : Asked) : Bool :=
  i.1.source ∈ results && (bound? a find i.1.source i.2).isNone

def planned? (a : Arena) (find : EntityLookup) (results : List SourceId) (i : Asked) :
    Option BoundInclude :=
  if i.1.source ∈ results then (bound? a find i.1.source i.2).filter (·.isSupported) else none

theorem bindAll_eq : (bindAll a find results includes).1 =
    (includes.find? (fails a find results)).elim
      (.ok (includes.filterMap (planned? a find results)))
      fun i => .error (.includeNotBindable (".".intercalate i.2)) := by
  induction includes with
  | nil => rfl
  | cons i includes ih =>
    rw [List.find?_cons, List.filterMap_cons]
    by_cases hs : i.1.source ∈ results
    · cases hb : bound? a find i.1.source i.2 with
      | none => simp [bindAll, fails, hs, hb]
      | some b =>
        have hfails : fails a find results i = false := by simp [fails, hb]
        have hplanned : planned? a find results i = if b.isSupported then some b else none := by
          simp [planned?, hs, hb, Option.filter]
        simp only [bindAll, hs, if_true, hb, ih, hfails, hplanned]
        cases includes.find? (fails a find results) with
        | some j => rfl
        | none => cases b.isSupported <;> rfl
    · simp [bindAll, fails, planned?, hs, ih]

theorem fails_iff {i : Asked} : fails a find results i = true ↔ Unbound a find results i := by
  simp [fails, Unbound, bound?_eq_none_iff]

theorem planned?_eq_some_iff {i : Asked} {b : BoundInclude} :
    planned? a find results i = some b ↔ Planned a find results i b.navigations ∧
      b.source = i.1.source ∧ a.entityType? i.1.source = some b.entityType := by
  have hsupported (hb : Binds a find i.1.source i.2 b.navigations) :
      b.isSupported = true ↔ ∀ n ∈ b.navigations.dropLast, n.isCollection = false := by
    simp [BoundInclude.isSupported, hb.ne_nil]
  unfold planned? Planned
  split
  next hs =>
    rw [Option.filter_eq_some_iff, bound?_eq_some_iff]
    constructor
    · rintro ⟨⟨hb, hsource, htype⟩, h⟩
      exact ⟨⟨hs, hb, (hsupported hb).mp h⟩, hsource, htype⟩
    · rintro ⟨⟨_, hb, h⟩, hsource, htype⟩
      exact ⟨⟨hb, hsource, htype⟩, (hsupported hb).mpr h⟩
  next hs =>
    constructor
    · intro h
      cases h
    · intro h
      exact absurd h.1.1 hs

/-- Binding fails at the first include that does not bind. -/
theorem bindAll_eq_error_iff {error : Error} : (bindAll a find results includes).1 = .error error ↔
    ∃ earlier i later, includes = earlier ++ i :: later ∧
      (∀ j ∈ earlier, ¬Unbound a find results j) ∧ Unbound a find results i ∧
      error = .includeNotBindable (".".intercalate i.2) := by
  rw [bindAll_eq]
  constructor
  · intro h
    cases hfind : includes.find? (fails a find results) with
    | none =>
      rw [hfind] at h
      cases h
    | some i =>
      rw [hfind] at h
      obtain ⟨hi, earlier, later, hsplit, hearlier⟩ := List.find?_eq_some_iff_append.mp hfind
      refine ⟨earlier, i, later, hsplit, fun j hj => ?_, fails_iff.mp hi, (Except.error.inj h).symm⟩
      rw [← fails_iff]
      simpa using hearlier j hj
  · rintro ⟨earlier, i, later, hsplit, hearlier, hi, herror⟩
    have hfind : includes.find? (fails a find results) = some i := by
      refine List.find?_eq_some_iff_append.mpr ⟨fails_iff.mpr hi, earlier, later, hsplit, ?_⟩
      intro j hj
      have hj := hearlier j hj
      rw [← fails_iff] at hj
      simpa using hj
    rw [hfind, herror]
    rfl

/-- Binding succeeds if no include fails to bind; what is bound are the includes to plan for. -/
theorem bindAll_eq_ok_iff {bs : List BoundInclude} : (bindAll a find results includes).1 = .ok bs ↔
    (∀ i ∈ includes, ¬Unbound a find results i) ∧
      bs = includes.filterMap (planned? a find results) := by
  have hnone : includes.find? (fails a find results) = none ↔
      ∀ i ∈ includes, ¬Unbound a find results i := by
    simp only [List.find?_eq_none, fails_iff]
  rw [bindAll_eq, ← hnone]
  cases includes.find? (fails a find results) with
  | none => simp [eq_comm]
  | some i => simp

end QueryTree.Include
