import Mathlib.Data.List.Chain
import Mathlib.Data.List.Nodup
import Mathlib.Data.List.Perm.Subperm
import QueryTree.Model.Exposure
import QueryTree.Proofs.Nodes

/-! Walks over sources. A source may pass on the items of another one, and such references may be
missing or form cycles. The search for an entity type and the list of the sources of a result are
walks along them that remember what they have passed. No source is passed twice, so a walk ends
after at most as many steps as the arena has sources. -/

namespace QueryTree.Arena

/-- A walk from `start` to underlying sources. It has passed the sources `passed`, the last one
first: each of them once, all of them in the arena, and such that the walk goes on below them. It
has come to `here`. -/
inductive Walk (a : Arena) (through : QuerySource → Prop) (start : Option SourceId) :
    List SourceId → Option SourceId → Prop where
  | start : Walk a through start [] start
  | pass {passed : List SourceId} {s : SourceId} {src : QuerySource}
      (h : Walk a through start passed (some s)) (hsrc : a.source? s = some src) (hnew : s ∉ passed)
      (hthrough : through src) : Walk a through start (s :: passed) (a.underlying? s)

/-- A walk does not go on. -/
def Stops (a : Arena) (through : QuerySource → Prop) (passed : List SourceId)
    (here : Option SourceId) : Prop :=
  ∀ s src, here = some s → a.source? s = some src → through src → s ∈ passed

variable {a : Arena} {through : QuerySource → Prop} {start here : Option SourceId}
  {passed chain : List SourceId} {s id : SourceId} {root : ModelId} {m : QueryModel}

/-! ### Ends of walks -/

theorem Walk.nodup (h : a.Walk through start passed here) : passed.Nodup := by
  induction h with
  | start => exact List.nodup_nil
  | pass _ _ hnew _ ih => exact List.nodup_cons.mpr ⟨hnew, ih⟩

theorem Walk.present (h : a.Walk through start passed here) :
    ∀ s ∈ passed, ∃ src, a.source? s = some src ∧ through src := by
  induction h with
  | start => simp
  | pass _ hsrc _ hthrough ih => exact List.forall_mem_cons.mpr ⟨⟨_, hsrc, hthrough⟩, ih⟩

theorem Walk.length_le (h : a.Walk through start passed here) :
    passed.length ≤ a.sources.length := by
  have hsub : passed ⊆ List.range a.sources.length := by
    intro s hs
    obtain ⟨src, hsrc, -⟩ := h.present s hs
    exact List.mem_range.mpr (List.getElem?_eq_some_iff.mp hsrc).1
  simpa using (h.nodup.subperm hsub).length_le

theorem Walk.exists_stop (h : a.Walk through start passed here) :
    ∃ passed here, a.Walk through start passed here ∧ a.Stops through passed here := by
  -- each step leaves fewer sources to pass
  induction hn : a.sources.length - passed.length generalizing passed here with
  | zero =>
    refine ⟨passed, here, h, ?_⟩
    rintro s src rfl hsrc hthrough
    by_contra hnew
    have hlength := (h.pass hsrc hnew hthrough).length_le
    rw [List.length_cons] at hlength
    omega
  | succ n ih =>
    by_cases hstop : a.Stops through passed here
    · exact ⟨passed, here, h, hstop⟩
    · simp only [Stops, not_forall] at hstop
      obtain ⟨s, src, rfl, hsrc, hthrough, hnew⟩ := hstop
      apply ih (h.pass hsrc hnew hthrough)
      rw [List.length_cons]
      omega

theorem exists_walk (a : Arena) (through : QuerySource → Prop) (start : Option SourceId) :
    ∃ passed here, a.Walk through start passed here ∧ a.Stops through passed here :=
  Walk.start.exists_stop

/-! ### Entity types -/

/-- Sources that a search for an entity type looks through. -/
def LooksThrough (src : QuerySource) : Prop := src.itemType = none ∧ src.kind ≠ .groupResult

theorem Walk.entityType?_eq (h : a.Walk LooksThrough (some id) passed here) :
    a.entityType? id = here.bind (a.entityTypeFrom passed) := by
  induction h with
  | start => rfl
  | pass h hsrc hnew hthrough ih =>
    rw [ih, Option.bind_some, entityTypeFrom_eq, if_neg hnew, hsrc, Option.bind_some, hthrough.1,
      Option.none_or, if_neg hthrough.2]

/-- The search finds the type of the source where the walk stops. -/
theorem Walk.entityType?_of_stops (h : a.Walk LooksThrough (some id) passed here)
    (hstop : a.Stops LooksThrough passed here) :
    a.entityType? id = here.bind fun s => (a.source? s).bind (·.itemType) := by
  rw [h.entityType?_eq]
  cases here with
  | none => rfl
  | some s =>
    rw [Option.bind_some, Option.bind_some, entityTypeFrom_eq]
    by_cases hs : s ∈ passed
    · obtain ⟨src, hsrc, hthrough⟩ := h.present s hs
      rw [if_pos hs, hsrc]
      exact hthrough.1.symm
    · rw [if_neg hs]
      cases hsrc : a.source? s with
      | none => rfl
      | some src =>
        cases htype : src.itemType with
        | some type => simp [htype]
        | none =>
          have hkind : src.kind = .groupResult := by
            by_contra hkind
            exact hs (hstop s src rfl hsrc ⟨htype, hkind⟩)
          simp [htype, hkind]

theorem entityType?_eq_some_iff {type : String} :
    a.entityType? id = some type ↔ ∃ passed s src, a.Walk LooksThrough (some id) passed (some s) ∧
      a.source? s = some src ∧ src.itemType = some type := by
  constructor
  · intro htype
    obtain ⟨passed, here, h, hstop⟩ := a.exists_walk LooksThrough (some id)
    simp only [h.entityType?_of_stops hstop, Option.bind_eq_some_iff] at htype
    obtain ⟨s, rfl, src, hsrc, htype⟩ := htype
    exact ⟨passed, s, src, h, hsrc, htype⟩
  · rintro ⟨passed, s, src, h, hsrc, htype⟩
    have hstop : a.Stops LooksThrough passed (some s) := by
      intro r src' hr hsrc' hthrough
      obtain rfl := Option.some.inj hr
      obtain rfl := Option.some.inj (hsrc.symm.trans hsrc')
      cases htype.symm.trans hthrough.1
    simp [h.entityType?_of_stops hstop, hsrc, htype]

theorem entityType?_eq_none_iff :
    a.entityType? id = none ↔ ∃ passed here, a.Walk LooksThrough (some id) passed here ∧
      ∀ s, here = some s → a.source? s = none ∨ s ∈ passed ∨
        ∃ src, a.source? s = some src ∧ src.itemType = none ∧ src.kind = .groupResult := by
  constructor
  · intro hnone
    obtain ⟨passed, here, h, hstop⟩ := a.exists_walk LooksThrough (some id)
    refine ⟨passed, here, h, ?_⟩
    rintro s rfl
    rw [h.entityType?_of_stops hstop, Option.bind_some] at hnone
    cases hsrc : a.source? s with
    | none => exact .inl rfl
    | some src =>
      have htype : src.itemType = none := by simpa [hsrc] using hnone
      by_cases hkind : src.kind = .groupResult
      · exact .inr (.inr ⟨src, rfl, htype, hkind⟩)
      · exact .inr (.inl (hstop s src rfl hsrc ⟨htype, hkind⟩))
  · rintro ⟨passed, here, h, hends⟩
    have hstop : a.Stops LooksThrough passed here := by
      rintro s src rfl hsrc hthrough
      rcases hends s rfl with hnone | hs | ⟨src', hsrc', -, hkind⟩
      · cases hsrc.symm.trans hnone
      · exact hs
      · obtain rfl := Option.some.inj (hsrc.symm.trans hsrc')
        exact absurd hkind hthrough.2
    rw [h.entityType?_of_stops hstop]
    cases here with
    | none => rfl
    | some s =>
      rcases hends s rfl with hnone | hs | ⟨src, hsrc, htype, -⟩
      · simp [hnone]
      · obtain ⟨src, hsrc, hthrough⟩ := h.present s hs
        simp [hsrc, hthrough.1]
      · simp [hsrc, htype]

/-! ### Results -/

theorem Walk.here_eq (h : a.Walk through start passed here) :
    here = passed.head?.elim start a.underlying? := by
  cases h <;> rfl

theorem Walk.first (h : a.Walk through start passed here) :
    ∀ s ∈ passed.getLast?, start = some s := by
  induction h with
  | start => simp
  | @pass passed s src h hsrc hnew hthrough ih =>
    cases passed with
    | nil => simpa using h.here_eq.symm
    | cons r passed => simpa using ih

theorem Walk.linked (h : a.Walk through start passed here) :
    passed.IsChain fun t s => a.underlying? s = some t := by
  induction h with
  | start => exact .nil
  | @pass passed s src h hsrc hnew hthrough ih =>
    refine List.isChain_cons.mpr ⟨?_, ih⟩
    intro r hr
    have hhere := h.here_eq
    rw [Option.mem_def.mp hr] at hhere
    exact hhere.symm

/-- Sources whose items a result consists of. -/
def IsReturned (src : QuerySource) : Prop := src.kind ≠ .groupResult

/-- Wherever a walk has come to, the list of the sources goes on from there. -/
theorem Walk.sourcesFrom_eq (h : a.Walk IsReturned start passed here) :
    a.sourcesFrom [] start = (a.sourcesFrom passed here).map (passed.reverse ++ ·) := by
  induction h with
  | start => cases a.sourcesFrom [] start <;> rfl
  | @pass passed s src h hsrc hnew hthrough ih =>
    have hgo : ¬ (src.kind = .groupResult ∨ s ∈ passed) := not_or.mpr ⟨hthrough, hnew⟩
    rw [ih, sourcesFrom_some]
    simp only [source, hsrc, Except.bind, if_neg hgo]
    cases a.sourcesFrom (s :: passed) (a.underlying? s) with
    | error error => rfl
    | ok rest => simp [Except.map]

/-- The sources of a result are what its walk has passed when it stops. -/
theorem Walk.sourcesFrom_of_stops (h : a.Walk IsReturned start passed here)
    (hstop : a.Stops IsReturned passed here)
    (hpresent : ∀ s, here = some s → ∃ src, a.source? s = some src) :
    a.sourcesFrom [] start = .ok passed.reverse := by
  rw [h.sourcesFrom_eq]
  cases here with
  | none => simp [sourcesFrom_none, Except.map]
  | some s =>
    obtain ⟨src, hsrc⟩ := hpresent s rfl
    have hend : src.kind = .groupResult ∨ s ∈ passed := by
      by_cases hkind : src.kind = .groupResult
      · exact .inl hkind
      · exact .inr (hstop s src rfl hsrc hkind)
    simp [sourcesFrom_some, source, hsrc, hend, Except.bind, Except.map]

theorem Walk.sourcesFrom_of_missing (h : a.Walk IsReturned start passed (some s))
    (hmissing : a.source? s = none) :
    a.sourcesFrom [] start = .error (.internal (.unknownSource s)) := by
  rw [h.sourcesFrom_eq, sourcesFrom_some]
  simp [source, hmissing, Except.bind, Except.map]

/-- The sources of a result that starts with `start`. -/
structure ResultChain (a : Arena) (start : Option SourceId) (chain : List SourceId) : Prop where
  nodup : chain.Nodup
  returned : ∀ s ∈ chain, ∃ src, a.source? s = some src ∧ src.kind ≠ .groupResult
  first : ∀ s ∈ chain.head?, start = some s
  linked : chain.IsChain fun s t => a.underlying? s = some t
  /-- The chain ends where no source underlies it, at groups, and where it would come back. -/
  ends : ∀ s, chain.getLast?.elim start a.underlying? = some s →
    s ∈ chain ∨ ∃ src, a.source? s = some src ∧ src.kind = .groupResult

theorem Walk.resultChain (h : a.Walk IsReturned start passed here)
    (hstop : a.Stops IsReturned passed here)
    (hpresent : ∀ s, here = some s → ∃ src, a.source? s = some src) :
    a.ResultChain start passed.reverse where
  nodup := List.nodup_reverse.mpr h.nodup
  returned := by
    intro s hs
    exact h.present s (List.mem_reverse.mp hs)
  first := by
    rw [List.head?_reverse]
    exact h.first
  linked := List.isChain_reverse.mpr h.linked
  ends := by
    rw [List.getLast?_reverse, ← h.here_eq]
    intro s hs
    obtain ⟨src, hsrc⟩ := hpresent s hs
    by_cases hkind : src.kind = .groupResult
    · exact .inr ⟨src, hsrc, hkind⟩
    · exact .inl (List.mem_reverse.mpr (hstop s src hs hsrc hkind))

/-- The walk of a result stops. It has listed a chain of sources, or it misses one. -/
theorem sourcesFrom_cases (a : Arena) (start : Option SourceId) :
    ∃ passed here, a.Walk IsReturned start passed here ∧ a.Stops IsReturned passed here ∧
      (a.ResultChain start passed.reverse ∧ a.sourcesFrom [] start = .ok passed.reverse ∨
        ∃ s, here = some s ∧ a.source? s = none ∧
          a.sourcesFrom [] start = .error (.internal (.unknownSource s))) := by
  obtain ⟨passed, here, h, hstop⟩ := a.exists_walk IsReturned start
  refine ⟨passed, here, h, hstop, ?_⟩
  by_cases hpresent : ∀ s, here = some s → ∃ src, a.source? s = some src
  · exact .inl ⟨h.resultChain hstop hpresent, h.sourcesFrom_of_stops hstop hpresent⟩
  · simp only [not_forall] at hpresent
    obtain ⟨s, rfl, hs⟩ := hpresent
    have hmissing : a.source? s = none := by
      cases hsrc : a.source? s with
      | none => rfl
      | some src => exact absurd ⟨src, hsrc⟩ hs
    exact .inr ⟨s, rfl, hmissing, h.sourcesFrom_of_missing hmissing⟩

theorem resultSources_of_model? (hm : a.model? root = some m) :
    a.resultSources root =
      if m.isScalar then .ok [] else a.sourcesFrom [] (a.resultSource? m) := by
  simp [resultSources, model, hm, bind, Except.bind]

theorem resultSources_of_not_scalar (hm : a.model? root = some m) (hscalar : m.isScalar = false) :
    a.resultSources root = a.sourcesFrom [] (a.resultSource? m) := by
  rw [resultSources_of_model? hm, hscalar, if_neg Bool.false_ne_true]

theorem resultSources_of_missing (hm : a.model? root = none) :
    a.resultSources root = .error (.unknownSubquery root) := by
  simp [resultSources, model, hm, bind, Except.bind]

/-- A scalar result has no sources, another one has a chain of them or misses one. -/
theorem resultSources_cases (hm : a.model? root = some m) :
    m.isScalar = true ∧ a.resultSources root = .ok [] ∨
    (m.isScalar = false ∧ ∃ chain, a.ResultChain (a.resultSource? m) chain ∧
      a.resultSources root = .ok chain) ∨
    ∃ passed s, a.Walk IsReturned (a.resultSource? m) passed (some s) ∧ a.source? s = none ∧
      a.resultSources root = .error (.internal (.unknownSource s)) := by
  cases hscalar : m.isScalar with
  | true => exact .inl ⟨rfl, by rw [resultSources_of_model? hm, if_pos hscalar]⟩
  | false =>
    rw [resultSources_of_not_scalar hm hscalar]
    obtain ⟨passed, here, h, -, ⟨hchain, hok⟩ | ⟨s, rfl, hs, herror⟩⟩ :=
      a.sourcesFrom_cases (a.resultSource? m)
    · exact .inr (.inl ⟨rfl, _, hchain, hok⟩)
    · exact .inr (.inr ⟨passed, s, h, hs, herror⟩)

theorem resultChain_of_resultSources (h : a.resultSources root = .ok chain) :
    ∃ m, a.model? root = some m ∧ (m.isScalar = true ∧ chain = [] ∨
      m.isScalar = false ∧ a.ResultChain (a.resultSource? m) chain) := by
  cases hm : a.model? root with
  | none => cases h.symm.trans (resultSources_of_missing hm)
  | some m =>
    refine ⟨m, rfl, ?_⟩
    rcases resultSources_cases hm with ⟨hscalar, hnil⟩ | ⟨hscalar, chain', hchain, hok⟩ |
      ⟨passed, s, -, -, herror⟩
    · exact .inl ⟨hscalar, Except.ok.inj (h.symm.trans hnil)⟩
    · obtain rfl := Except.ok.inj (h.symm.trans hok)
      exact .inr ⟨hscalar, hchain⟩
    · cases h.symm.trans herror

theorem resultSources_eq_error {error : Error} (h : a.resultSources root = .error error) :
    a.model? root = none ∧ error = .unknownSubquery root ∨
    ∃ m passed s, a.model? root = some m ∧ a.Walk IsReturned (a.resultSource? m) passed (some s) ∧
      a.source? s = none ∧ error = .internal (.unknownSource s) := by
  cases hm : a.model? root with
  | none => exact .inl ⟨rfl, Except.error.inj (h.symm.trans (resultSources_of_missing hm))⟩
  | some m =>
    rcases resultSources_cases hm with ⟨-, hnil⟩ | ⟨-, chain, -, hok⟩ |
      ⟨passed, s, hwalk, hmissing, herror⟩
    · cases h.symm.trans hnil
    · cases h.symm.trans hok
    · exact .inr ⟨m, passed, s, rfl, hwalk, hmissing, Except.error.inj (h.symm.trans herror)⟩

/-- In every arena both walks end: after no more steps than the arena has sources they stop, and
what they have found by then is the answer. The sources of a result are a chain from the source that
the model shows, unless the model or a source on the way is missing. An entity type is that of the
first source with one, and there is none if the walk comes before to groups, to a missing source, to
an end or to a source it has passed. -/
theorem source_walks_end (a : Arena) :
    (∀ id, ∃ passed here, a.Walk LooksThrough (some id) passed here ∧
      a.Stops LooksThrough passed here ∧ passed.length ≤ a.sources.length ∧
      a.entityType? id = here.bind fun s => (a.source? s).bind (·.itemType)) ∧
    (∀ root m, a.model? root = some m → m.isScalar = false →
      ∃ passed here, a.Walk IsReturned (a.resultSource? m) passed here ∧
        a.Stops IsReturned passed here ∧ passed.length ≤ a.sources.length ∧
        (a.resultSources root = .ok passed.reverse ∨ ∃ s, here = some s ∧ a.source? s = none ∧
          a.resultSources root = .error (.internal (.unknownSource s)))) ∧
    (∀ root chain, a.resultSources root = .ok chain → ∃ m, a.model? root = some m ∧
      (m.isScalar = true ∧ chain = [] ∨
        m.isScalar = false ∧ a.ResultChain (a.resultSource? m) chain)) ∧
    (∀ root error, a.resultSources root = .error error →
      a.model? root = none ∧ error = .unknownSubquery root ∨
      ∃ m passed s, a.model? root = some m ∧ a.Walk IsReturned (a.resultSource? m) passed (some s) ∧
        a.source? s = none ∧ error = .internal (.unknownSource s)) ∧
    (∀ id type, a.entityType? id = some type ↔
      ∃ passed s src, a.Walk LooksThrough (some id) passed (some s) ∧
        a.source? s = some src ∧ src.itemType = some type) ∧
    ∀ id, a.entityType? id = none ↔ ∃ passed here, a.Walk LooksThrough (some id) passed here ∧
      ∀ s, here = some s → a.source? s = none ∨ s ∈ passed ∨
        ∃ src, a.source? s = some src ∧ src.itemType = none ∧ src.kind = .groupResult := by
  refine ⟨fun id => ?_, fun root m hm hscalar => ?_, fun root chain h => ?_, fun root error h => ?_,
    fun id type => ?_, fun id => ?_⟩
  · obtain ⟨passed, here, h, hstop⟩ := a.exists_walk LooksThrough (some id)
    exact ⟨passed, here, h, hstop, h.length_le, h.entityType?_of_stops hstop⟩
  · rw [resultSources_of_not_scalar hm hscalar]
    obtain ⟨passed, here, h, hstop, hanswer⟩ := a.sourcesFrom_cases (a.resultSource? m)
    exact ⟨passed, here, h, hstop, h.length_le, hanswer.imp_left And.right⟩
  · exact resultChain_of_resultSources h
  · exact resultSources_eq_error h
  · exact entityType?_eq_some_iff
  · exact entityType?_eq_none_iff

/-- Two sources that pass on each other's items. -/
def mutualSources : Arena where
  sources := [⟨"x", .mainFrom, .sourceRef 1, none⟩, ⟨"y", .mainFrom, .subQuery 0, none⟩]
  models := [.ofSource 0]

example : mutualSources.resultSources 0 = .ok [0, 1] := rfl

example : mutualSources.entityType? 0 = none := rfl

end QueryTree.Arena
