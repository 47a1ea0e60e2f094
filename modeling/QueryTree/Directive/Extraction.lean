import QueryTree.Directive.Context
import QueryTree.Model.Arena

/-! Directives leave the models. Models are met after the subqueries they refer to, so that the
directives of a model come after those of its subqueries. -/

namespace QueryTree

namespace Arena

/-- The subqueries of a model, if its expressions can be read, lie in reach of the walk. -/
theorem lt_of_referencedSubqueries {a : Arena} {id : ModelId} {ms : List ModelId}
    (h : a.referencedSubqueries id = .ok ms) : id < a.models.length := by
  cases he : a.modelExpressions id with
  | error e => simp [referencedSubqueries, he, bind, Except.bind] at h
  | ok es => exact lt_of_modelExpressions he

end Arena

/-- The directive that an operator carries. An include without a source applies to the main
source. -/
def directive? (id : ModelId) (mainFrom : SourceId) : ResultOperator → Option AppliedDirective
  | .tracking on => some ⟨.tracking on, mainFrom, id⟩
  | .tag text => some ⟨.tag text, mainFrom, id⟩
  | .ignoreFilters => some ⟨.ignoreFilters, mainFrom, id⟩
  | .includes source path => some ⟨.includes path, source.getD mainFrom, id⟩
  | _ => none

def QueryModel.directives (m : QueryModel) (id : ModelId) : List AppliedDirective :=
  m.operators.filterMap (directive? id m.mainFrom)

/-- The model without its directives. -/
def QueryModel.bare (m : QueryModel) : QueryModel :=
  { m with operators := m.operators.filter (!·.isDirective) }

namespace AppliedDirective

/-- Goes over the pending models, each once. A model marked `true` has its subqueries done and its
directives are moved into the context; what was moved before an error stays moved. -/
def extractFrom (pending : List (ModelId × Bool)) (seen : List ModelId)
    (state : Arena × CompilationContext) : Except Error Unit × Arena × CompilationContext :=
  match pending with
  | [] => (.ok (), state)
  | (id, true) :: rest =>
    match state.1.model id with
    | .error e => (.error e, state)
    | .ok m =>
      extractFrom rest seen (state.1.setModel id m.bare, (m.directives id).foldl .add state.2)
  | (id, false) :: rest =>
    if id ∈ seen then extractFrom rest seen state
    else
      match _h : state.1.referencedSubqueries id with
      | .error e => (.error e, state)
      | .ok ms => extractFrom (ms.map (·, false) ++ (id, true) :: rest) (id :: seen) state
termination_by (unseen state.1.models.length seen, pending.length)
decreasing_by
  · simp only [Arena.setModel, List.length_set]
    exact Prod.Lex.right _ (by simp)
  · exact Prod.Lex.right _ (by simp)
  · exact Prod.Lex.left _ _
      (unseen_cons_lt (Arena.lt_of_referencedSubqueries _h) (by assumption))

def extract (root : ModelId) (state : Arena × CompilationContext) :
    Except Error Unit × Arena × CompilationContext :=
  extractFrom [(root, false)] [] state

end AppliedDirective

end QueryTree
