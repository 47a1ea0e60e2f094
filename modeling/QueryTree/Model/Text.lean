import QueryTree.Model.Arena

/-! The text of models. A subquery is written in braces where it is referred to. -/

namespace QueryTree

namespace Arena

def writeSourceName (a : Arena) (id : SourceId) : Written :=
  match a.source? id with
  | some s => s.name
  | none => .broken (InternalFault.unknownSource id).message

def writeSource (a : Arena) (n : Naming) (keyword : String) (id : SourceId) : Written :=
  match a.source? id with
  | some s => (keyword ++ " " ++ s.name ++ " in ") ++ s.origin.write n
  | none => .broken (InternalFault.unknownSource id).message

def writeSortKey (n : Naming) (k : SortKey) : Written :=
  k.key.write n ++ (if k.descending then " desc" else " asc")

def writeClause (a : Arena) (n : Naming) : Clause → Written
  | .filter p => " where " ++ p.write n
  | .orderBy keys => " orderby " ++ Written.join ", " (keys.map (writeSortKey n))
  | .additionalFrom s => " " ++ a.writeSource n "from" s
  | .join _ s outer inner =>
    " " ++ a.writeSource n "join" s ++ " on " ++ outer.write n ++ " equals " ++ inner.write n

/-- Tags and include paths are written as such, other operators with their expressions, if they
have any. -/
def writeOperator (n : Naming) (op : ResultOperator) : Written :=
  match op with
  | .tag text => " => " ++ op.name ++ "(" ++ Text.quoted text ++ ")"
  | .includes _ path => " => " ++ op.name ++ "(" ++ ".".intercalate path ++ ")"
  | _ =>
    if op.expressions.isEmpty then " => " ++ op.name
    else " => " ++ op.name ++ "(" ++ Written.join ", " (op.expressions.map (·.write n)) ++ ")"

def writeParts (a : Arena) (n : Naming) (m : QueryModel) : Written :=
  a.writeSource n "from" m.mainFrom ++ Written.join "" (m.clauses.map (a.writeClause n))
    ++ " select " ++ m.select.write n ++ Written.join "" (m.operators.map (writeOperator n))

/-- A model, with subqueries nested at most `depth` deep. -/
def writeModel (a : Arena) : Nat → ModelId → Written
  | 0, id => .broken ("model #" ++ toString id ++ " contains itself")
  | depth + 1, id =>
    match a.model? id with
    | none => .broken (Error.unknownSubquery id).message
    | some m =>
      a.writeParts ⟨a.writeSourceName, fun sub => "\x7b" ++ a.writeModel depth sub ++ "\x7d"⟩ m

/-- Subqueries that do not contain themselves nest at most as deep as there are models. -/
def depth (a : Arena) : Nat := a.models.length + 1

/-- References are written by what they refer to. -/
def naming (a : Arena) : Naming :=
  ⟨a.writeSourceName, fun sub => "\x7b" ++ a.writeModel a.depth sub ++ "\x7d"⟩

def render (a : Arena) (root : ModelId) : String := (a.writeModel a.depth root).finish

def renderExpr (a : Arena) (e : Expr) : String := (e.write a.naming).finish

/-- Without an arena a model has no text. -/
def renderDetached : String := (Written.broken "no model arena attached").finish

end Arena

end QueryTree
