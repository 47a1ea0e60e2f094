import QueryTree.Model.Arena

/-! What a query returns: the sources whose items a model or a source passes on. Arenas may hold
cyclic references, so each walk remembers the sources it has met. At each step there is one less
that it has not met. -/

namespace QueryTree.Arena

/-- The source that an expression stands for: itself, or what a subquery selects. -/
def exposedBy? (a : Arena) (e : Expr) : Option SourceId :=
  match e.strip with
  | .sourceRef id => some id
  | .subQuery m =>
    match a.model? m with
    | none => none
    | some model =>
      match model.groupSource? with
      | some s => some s
      | none =>
        match model.select.strip with
        | .sourceRef id => some id
        | _ => none
  | _ => none

/-- The source whose items a source passes on. -/
def underlying? (a : Arena) (id : SourceId) : Option SourceId :=
  (a.source? id).bind fun s => a.exposedBy? s.origin

theorem lt_of_source? {a : Arena} {id : SourceId} {s : QuerySource} (h : a.source? id = some s) :
    id < a.sources.length :=
  (List.getElem?_eq_some_iff.mp h).1

/-- The first entity type on the walk to underlying sources, which does not go on below groups. -/
@[semireducible]
def entityTypeFrom (a : Arena) (seen : List SourceId) (id : SourceId) : Option String :=
  if id ∈ seen then none
  else
    match _h : a.source? id with
    | none => none
    | some s =>
      match s.itemType with
      | some type => some type
      | none =>
        if s.kind = .groupResult then none
        else
          match a.underlying? id with
          | none => none
          | some below => a.entityTypeFrom (id :: seen) below
termination_by unseen a.sources.length seen
decreasing_by exact unseen_cons_lt (lt_of_source? _h) (by assumption)

theorem entityTypeFrom_eq (a : Arena) (seen : List SourceId) (id : SourceId) :
    a.entityTypeFrom seen id =
      if id ∈ seen then none
      else (a.source? id).bind fun s => s.itemType.or <|
        if s.kind = .groupResult then none
        else (a.underlying? id).bind (a.entityTypeFrom (id :: seen)) := by
  rw [entityTypeFrom]
  split
  · rfl
  · split
    next hs => rw [hs, Option.bind_none]
    next s hs =>
      rw [hs, Option.bind_some]
      cases s.itemType with
      | some type => rfl
      | none => cases a.underlying? id <;> rfl

def entityType? (a : Arena) (id : SourceId) : Option String := a.entityTypeFrom [] id

/-- The sources on the walk to underlying sources, up to groups. -/
@[semireducible]
def sourcesFrom (a : Arena) (seen : List SourceId) (start : Option SourceId) :
    Except Error (List SourceId) :=
  match start with
  | none => .ok []
  | some id =>
    match _h : a.source? id with
    | none => .error (.internal (.unknownSource id))
    | some s =>
      if s.kind = .groupResult ∨ id ∈ seen then .ok []
      else (a.sourcesFrom (id :: seen) (a.underlying? id)).map (id :: ·)
termination_by unseen a.sources.length seen
decreasing_by exact unseen_cons_lt (lt_of_source? _h) (not_or.mp (by assumption)).2

theorem sourcesFrom_none (a : Arena) (seen : List SourceId) : a.sourcesFrom seen none = .ok [] := by
  rw [sourcesFrom]

theorem sourcesFrom_some (a : Arena) (seen : List SourceId) (id : SourceId) :
    a.sourcesFrom seen (some id) = (a.source id).bind fun s =>
      if s.kind = .groupResult ∨ id ∈ seen then .ok []
      else (a.sourcesFrom (id :: seen) (a.underlying? id)).map (id :: ·) := by
  rw [sourcesFrom, source]
  split
  next hs => rw [hs, Except.bind]
  next s hs => rw [hs, Except.bind]

/-- The source that the result of a model starts with. -/
def resultSource? (a : Arena) (m : QueryModel) : Option SourceId :=
  match m.groupSource? with
  | some s => some s
  | none => a.exposedBy? m.select

/-- The sources whose items a model returns, outermost first. The items of groups are not
returned themselves, and a scalar result has no sources. -/
def resultSources (a : Arena) (root : ModelId) : Except Error (List SourceId) := do
  let m ← a.model root
  if m.isScalar then .ok []
  else a.sourcesFrom [] (a.resultSource? m)

end QueryTree.Arena
