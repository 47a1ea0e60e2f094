import QueryTree.Model.Arena

/-! Whether all references that a model reaches lead somewhere. -/

namespace QueryTree.Arena

/-- The subqueries of an expression, if they and its sources are in the arena. -/
def checkExpression (a : Arena) (id : ModelId) (e : Expr) : Except Error (List ModelId) :=
  if e.sourceRefs.any fun s => (a.source? s).isNone then .error (.internal (.foreignSource id))
  else
    match e.subqueries.find? fun m => (a.model? m).isNone with
    | some m => .error (.unknownSubquery m)
    | none => .ok e.subqueries

def checkExpressions (a : Arena) (id : ModelId) : List Expr → Except Error (List ModelId)
  | [] => .ok []
  | e :: es => do
    let ms ← a.checkExpression id e
    let rest ← a.checkExpressions id es
    .ok (ms ++ rest)

/-- Checks the pending models, each once, the last referenced first. -/
def validateFrom (a : Arena) (pending seen : List ModelId) : Except Error Unit :=
  match pending with
  | [] => .ok ()
  | id :: rest =>
    if id ∈ seen then a.validateFrom rest seen
    else
      match _h : a.modelExpressions id with
      | .error e => .error e
      | .ok es =>
        match a.checkExpressions id es with
        | .error e => .error e
        | .ok found => a.validateFrom (found.reverse ++ rest) (id :: seen)
termination_by (unseen a.models.length seen, pending.length)
decreasing_by
  · exact Prod.Lex.right _ (by simp)
  · exact Prod.Lex.left _ _ (unseen_cons_lt (lt_of_modelExpressions _h) (by assumption))

/-- Every model that `root` reaches refers only to sources and subqueries of the arena. -/
def validate (a : Arena) (root : ModelId) : Except Error Unit := a.validateFrom [root] []

end QueryTree.Arena
