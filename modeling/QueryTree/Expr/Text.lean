import QueryTree.Expr.Basic
import QueryTree.Text.Written
import QueryTree.Value.Text

/-! The text of expressions. References to sources and subqueries are written by a `Naming`, which
an arena can supply. -/

namespace QueryTree

/-- How references into an arena are written. -/
structure Naming where
  source : SourceId → Written
  subquery : ModelId → Written

/-- References are written by number. -/
def Naming.detached : Naming where
  source s := "[source#" ++ toString s ++ "]"
  subquery m := "\x7bsubquery#" ++ toString m ++ "\x7d"

namespace Expr

/-- A single parameter stands alone, others are listed in parentheses. -/
def paramsText : List String → String
  | [p] => p
  | ps => "(" ++ ", ".intercalate ps ++ ")"

def unaryMark : UnaryOp → String
  | .not => "!"
  | .negate => "-"
  | .convert type => "(" ++ type ++ ")"
  | .quote => ""

mutual

def write (n : Naming) : Expr → Written
  | constant v => v.text
  | parameter name => "@" ++ name
  | var name => name
  | member t m => t.write n ++ ("." ++ m.name)
  | staticMember m => m.text
  | call t m args =>
    t.write n ++ ("." ++ m.name ++ m.genericsText ++ "(") ++ Written.join ", " (writeAll n args)
      ++ ")"
  | staticCall m args =>
    (m.owner ++ "." ++ m.name ++ m.genericsText ++ "(") ++ Written.join ", " (writeAll n args)
      ++ ")"
  | unary op e => unaryMark op ++ e.write n
  | binary op l r => "(" ++ l.write n ++ (" " ++ op.symbol ++ " ") ++ r.write n ++ ")"
  | lambda ps b => (paramsText ps ++ " => ") ++ b.write n
  | conditional t a b => "(" ++ t.write n ++ " ? " ++ a.write n ++ " : " ++ b.write n ++ ")"
  | invoke c args => "(" ++ c.write n ++ ")(" ++ Written.join ", " (writeAll n args) ++ ")"
  | context => "context"
  | entityQuery entity => "EntityQueryable<" ++ entity ++ ">"
  | sourceRef s => n.source s
  | subQuery m => n.subquery m

def writeAll (n : Naming) : List Expr → List Written
  | [] => []
  | e :: es => e.write n :: writeAll n es

end

def text (e : Expr) : String := (e.write .detached).finish

end Expr

end QueryTree
