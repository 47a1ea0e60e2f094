import QueryTree.Error
import QueryTree.Model.Basic

/-! Arenas: the models and sources of one query. Expressions refer to them by position. -/

namespace QueryTree

/-- How many of the first `count` ids a walk has not met. -/
def unseen (count : Nat) (seen : List Nat) : Nat :=
  ((List.range count).filter (· ∉ seen)).length

theorem unseen_cons_lt {count id : Nat} {seen : List Nat} (hid : id < count) (hs : id ∉ seen) :
    unseen count (id :: seen) < unseen count seen := by
  have hsub : ((List.range count).filter (· ∉ id :: seen)) =
      (((List.range count).filter (· ∉ seen)).filter (· ≠ id)) := by
    rw [List.filter_filter]
    apply List.filter_congr
    intro x _
    simp
  unfold unseen
  rw [hsub]
  apply List.length_filter_lt_length_iff_exists.mpr
  exact ⟨id, by simp [hid, hs], by simp⟩

structure Arena where
  models : List QueryModel
  sources : List QuerySource
  deriving DecidableEq

namespace Arena

def empty : Arena := ⟨[], []⟩

def source? (a : Arena) (id : SourceId) : Option QuerySource := a.sources[id]?

def model? (a : Arena) (id : ModelId) : Option QueryModel := a.models[id]?

def model (a : Arena) (id : ModelId) : Except Error QueryModel :=
  match a.model? id with
  | some m => .ok m
  | none => .error (.unknownSubquery id)

def source (a : Arena) (id : SourceId) : Except Error QuerySource :=
  match a.source? id with
  | some s => .ok s
  | none => .error (.internal (.unknownSource id))

def addSource (a : Arena) (s : QuerySource) : SourceId × Arena :=
  (a.sources.length, { a with sources := a.sources ++ [s] })

def addModel (a : Arena) (m : QueryModel) : ModelId × Arena :=
  (a.models.length, { a with models := a.models ++ [m] })

def renameSource (a : Arena) (id : SourceId) (name : String) : Arena :=
  { a with sources := a.sources.modify id ({ · with name := name }) }

def setModel (a : Arena) (id : ModelId) (m : QueryModel) : Arena :=
  { a with models := a.models.set id m }

def origins (a : Arena) : List SourceId → Except Error (List Expr)
  | [] => .ok []
  | id :: ids => do
    let s ← a.source id
    let es ← a.origins ids
    .ok (s.origin :: es)

/-- The expressions of a model and of the sources it declares. -/
def modelExpressions (a : Arena) (id : ModelId) : Except Error (List Expr) := do
  let m ← a.model id
  let es ← a.origins m.declaredSources
  .ok (es ++ m.expressions)

/-- The subqueries that a model refers to, in the order of its expressions. -/
def referencedSubqueries (a : Arena) (id : ModelId) : Except Error (List ModelId) := do
  let es ← a.modelExpressions id
  .ok (es.flatMap (·.subqueries))

theorem lt_of_modelExpressions {a : Arena} {id : ModelId} {es : List Expr}
    (h : a.modelExpressions id = .ok es) : id < a.models.length := by
  by_cases hid : id < a.models.length
  · exact hid
  · have hm : a.model id = .error (.unknownSubquery id) := by
      simp only [model, model?]
      rw [List.getElem?_eq_none (Nat.le_of_not_lt hid)]
    simp [modelExpressions, hm, bind, Except.bind] at h

end Arena

end QueryTree
