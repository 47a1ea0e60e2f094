import QueryTree.Method
import QueryTree.Value.Basic

/-! Expression trees of queries: constants, names, reads, calls, operators, lambdas, invocations and
the nodes that stand for sequences. Trees are compared structurally. -/

namespace QueryTree

/-- The position of a query source in its arena. -/
abbrev SourceId := Nat

/-- The position of a query model in its arena. -/
abbrev ModelId := Nat

inductive UnaryOp where
  | not
  | negate
  | convert (type : String)
  /-- Marks a lambda that is passed as an operator argument. -/
  | quote
  deriving DecidableEq, Hashable, Repr

inductive BinaryOp where
  | and | or
  | eq | ne | gt | ge | lt | le
  | add | sub | mul | div | mod
  | coalesce
  deriving DecidableEq, Hashable, Repr

namespace BinaryOp

def symbol : BinaryOp → String
  | and => "&&"
  | or => "||"
  | eq => "=="
  | ne => "!="
  | gt => ">"
  | ge => ">="
  | lt => "<"
  | le => "<="
  | add => "+"
  | sub => "-"
  | mul => "*"
  | div => "/"
  | mod => "%"
  | coalesce => "??"

def isComparison : BinaryOp → Bool
  | eq | ne | gt | ge | lt | le => true
  | _ => false

def isLogical : BinaryOp → Bool
  | and | or => true
  | _ => false

/-- The operator that yields the negated result. Only logical operators and comparisons have
one. -/
def invert? : BinaryOp → Option BinaryOp
  | and => some or
  | or => some and
  | eq => some ne
  | ne => some eq
  | gt => some le
  | ge => some lt
  | lt => some ge
  | le => some gt
  | _ => none

def label : BinaryOp → String
  | and => "And"
  | or => "Or"
  | eq => "Eq"
  | ne => "Ne"
  | gt => "Gt"
  | ge => "Ge"
  | lt => "Lt"
  | le => "Le"
  | add => "Add"
  | sub => "Sub"
  | mul => "Mul"
  | div => "Div"
  | mod => "Mod"
  | coalesce => "Coalesce"

def all : List BinaryOp := [and, or, eq, ne, gt, ge, lt, le, add, sub, mul, div, mod, coalesce]

def ofLabel? (label : String) : Option BinaryOp := all.find? (·.label == label)

end BinaryOp

inductive Expr where
  | constant (value : Value)
  /-- A query parameter, bound when the query runs. -/
  | parameter (name : String)
  /-- A reference to a lambda parameter. -/
  | var (name : String)
  | member (target : Expr) (member : Member)
  | staticMember (member : Member)
  | call (target : Expr) (method : Method) (args : List Expr)
  /-- A call without receiver; an extension method takes its sequence as first argument. -/
  | staticCall (method : Method) (args : List Expr)
  | unary (op : UnaryOp) (operand : Expr)
  | binary (op : BinaryOp) (left right : Expr)
  | lambda (params : List String) (body : Expr)
  | conditional (test ifTrue ifFalse : Expr)
  | invoke (callee : Expr) (args : List Expr)
  /-- The session that the query was created from. -/
  | context
  /-- All entities of a type. -/
  | entityQuery (entity : String)
  /-- The current item of a query source. -/
  | sourceRef (source : SourceId)
  /-- A nested query. -/
  | subQuery (model : ModelId)

namespace Expr

instance : Inhabited Expr := ⟨context⟩

def null : Expr := constant .null

def not (operand : Expr) : Expr := unary .not operand

def quote (operand : Expr) : Expr := unary .quote operand

def and (left right : Expr) : Expr := binary .and left right

def or (left right : Expr) : Expr := binary .or left right

def eq (left right : Expr) : Expr := binary .eq left right

def ne (left right : Expr) : Expr := binary .ne left right

def asConstant? : Expr → Option Value
  | constant v => some v
  | _ => none

def isConstant (e : Expr) : Bool := e.asConstant?.isSome

def isContext : Expr → Bool
  | context => true
  | _ => false

/-- The expression under conversions and quotes. -/
def strip : Expr → Expr
  | unary (.convert _) e => e.strip
  | unary .quote e => e.strip
  | e => e

def children : Expr → List Expr
  | member t _ => [t]
  | call t _ args => t :: args
  | staticCall _ args => args
  | unary _ e => [e]
  | binary _ l r => [l, r]
  | lambda _ b => [b]
  | conditional t a b => [t, a, b]
  | invoke c args => c :: args
  | _ => []

def mapChildren (f : Expr → Expr) : Expr → Expr
  | member t m => member (f t) m
  | call t m args => call (f t) m (args.map f)
  | staticCall m args => staticCall m (args.map f)
  | unary op e => unary op (f e)
  | binary op l r => binary op (f l) (f r)
  | lambda ps b => lambda ps (f b)
  | conditional t a b => conditional (f t) (f a) (f b)
  | invoke c args => invoke (f c) (args.map f)
  | e => e

/-- The node over new direct subexpressions, which are as many as the old ones. -/
def withChildren : Expr → List Expr → Expr
  | member _ m, [t] => member t m
  | call _ m _, t :: args => call t m args
  | staticCall m _, args => staticCall m args
  | unary op _, [e] => unary op e
  | binary op _ _, [l, r] => binary op l r
  | lambda ps _, [b] => lambda ps b
  | conditional _ _ _, [t, a, b] => conditional t a b
  | invoke _ _, c :: args => invoke c args
  | e, _ => e

theorem withChildren_children (e : Expr) : e.withChildren e.children = e := by
  cases e <;> rfl

theorem withChildren_map (f : Expr → Expr) (e : Expr) :
    e.withChildren (e.children.map f) = e.mapChildren f := by
  cases e <;> rfl

mutual

/-- All subexpressions, each before its own, children in order. -/
def nodes : Expr → List Expr
  | member t m => member t m :: nodes t
  | call t m args => call t m args :: (nodes t ++ nodesOf args)
  | staticCall m args => staticCall m args :: nodesOf args
  | unary op e => unary op e :: nodes e
  | binary op l r => binary op l r :: (nodes l ++ nodes r)
  | lambda ps b => lambda ps b :: nodes b
  | conditional t a b => conditional t a b :: (nodes t ++ nodes a ++ nodes b)
  | invoke c args => invoke c args :: (nodes c ++ nodesOf args)
  | e => [e]

def nodesOf : List Expr → List Expr
  | [] => []
  | e :: es => nodes e ++ nodesOf es

end

def subqueries (e : Expr) : List ModelId :=
  e.nodes.filterMap fun
    | subQuery m => some m
    | _ => none

def sourceRefs (e : Expr) : List SourceId :=
  e.nodes.filterMap fun
    | sourceRef s => some s
    | _ => none

def usesContext (e : Expr) : Bool := e.nodes.any isContext

/-! ### Equality -/

mutual

def beq : Expr → Expr → Bool
  | constant a, constant b => decide (a = b)
  | parameter a, parameter b => a == b
  | var a, var b => a == b
  | member t m, member u n => beq t u && decide (m = n)
  | staticMember m, staticMember n => decide (m = n)
  | call t m as, call u n bs => beq t u && decide (m = n) && beqList as bs
  | staticCall m as, staticCall n bs => decide (m = n) && beqList as bs
  | unary o a, unary p b => decide (o = p) && beq a b
  | binary o a b, binary p c d => decide (o = p) && beq a c && beq b d
  | lambda ps a, lambda qs b => decide (ps = qs) && beq a b
  | conditional a b c, conditional d e f => beq a d && beq b e && beq c f
  | invoke a as, invoke b bs => beq a b && beqList as bs
  | context, context => true
  | entityQuery a, entityQuery b => a == b
  | sourceRef a, sourceRef b => a == b
  | subQuery a, subQuery b => a == b
  | _, _ => false

def beqList : List Expr → List Expr → Bool
  | [], [] => true
  | a :: as, b :: bs => beq a b && beqList as bs
  | _, _ => false

end

mutual

theorem eq_of_beq : (a b : Expr) → beq a b = true → a = b
  | constant _, b, h => by cases b <;> simp_all [beq]
  | parameter _, b, h => by cases b <;> simp_all [beq]
  | var _, b, h => by cases b <;> simp_all [beq]
  | staticMember _, b, h => by cases b <;> simp_all [beq]
  | context, b, h => by cases b <;> simp_all [beq]
  | entityQuery _, b, h => by cases b <;> simp_all [beq]
  | sourceRef _, b, h => by cases b <;> simp_all [beq]
  | subQuery _, b, h => by cases b <;> simp_all [beq]
  | member t _, b, h => by
    cases b <;> simp only [beq, Bool.and_eq_true, decide_eq_true_eq, Bool.false_eq_true] at h
    rw [eq_of_beq t _ h.1, h.2]
  | call t _ as, b, h => by
    cases b <;> simp only [beq, Bool.and_eq_true, decide_eq_true_eq, Bool.false_eq_true] at h
    rw [eq_of_beq t _ h.1.1, h.1.2, eq_of_beqList as _ h.2]
  | staticCall _ as, b, h => by
    cases b <;> simp only [beq, Bool.and_eq_true, decide_eq_true_eq, Bool.false_eq_true] at h
    rw [h.1, eq_of_beqList as _ h.2]
  | unary _ a, b, h => by
    cases b <;> simp only [beq, Bool.and_eq_true, decide_eq_true_eq, Bool.false_eq_true] at h
    rw [h.1, eq_of_beq a _ h.2]
  | binary _ a c, b, h => by
    cases b <;> simp only [beq, Bool.and_eq_true, decide_eq_true_eq, Bool.false_eq_true] at h
    rw [h.1.1, eq_of_beq a _ h.1.2, eq_of_beq c _ h.2]
  | lambda _ a, b, h => by
    cases b <;> simp only [beq, Bool.and_eq_true, decide_eq_true_eq, Bool.false_eq_true] at h
    rw [h.1, eq_of_beq a _ h.2]
  | conditional t a c, b, h => by
    cases b <;> simp only [beq, Bool.and_eq_true, Bool.false_eq_true] at h
    rw [eq_of_beq t _ h.1.1, eq_of_beq a _ h.1.2, eq_of_beq c _ h.2]
  | invoke a as, b, h => by
    cases b <;> simp only [beq, Bool.and_eq_true, Bool.false_eq_true] at h
    rw [eq_of_beq a _ h.1, eq_of_beqList as _ h.2]

theorem eq_of_beqList : (as bs : List Expr) → beqList as bs = true → as = bs
  | [], bs, h => by cases bs <;> simp_all [beqList]
  | a :: as, bs, h => by
    cases bs with
    | nil => simp [beqList] at h
    | cons b bs =>
      simp only [beqList, Bool.and_eq_true] at h
      rw [eq_of_beq a b h.1, eq_of_beqList as bs h.2]

end

mutual

theorem beq_refl : (a : Expr) → beq a a = true
  | constant _ => by simp [beq]
  | parameter _ => by simp [beq]
  | var _ => by simp [beq]
  | staticMember _ => by simp [beq]
  | context => rfl
  | entityQuery _ => by simp [beq]
  | sourceRef _ => by simp [beq]
  | subQuery _ => by simp [beq]
  | member t _ => by simp [beq, beq_refl t]
  | call t _ as => by simp [beq, beq_refl t, beqList_refl as]
  | staticCall _ as => by simp [beq, beqList_refl as]
  | unary _ a => by simp [beq, beq_refl a]
  | binary _ a b => by simp [beq, beq_refl a, beq_refl b]
  | lambda _ a => by simp [beq, beq_refl a]
  | conditional t a b => by simp [beq, beq_refl t, beq_refl a, beq_refl b]
  | invoke a as => by simp [beq, beq_refl a, beqList_refl as]

theorem beqList_refl : (as : List Expr) → beqList as as = true
  | [] => rfl
  | a :: as => by simp [beqList, beq_refl a, beqList_refl as]

end

theorem beq_iff (a b : Expr) : beq a b = true ↔ a = b :=
  ⟨eq_of_beq a b, fun h => h ▸ beq_refl a⟩

instance : DecidableEq Expr := fun a b => decidable_of_iff _ (beq_iff a b)

end Expr

end QueryTree
