import QueryTree.Number.Shortest
import QueryTree.Text.Quoted
import QueryTree.Value.Basic

/-! The text of values. -/

namespace QueryTree.Value

/-- Floats are positional from `0.0001` up to below `1e16` and always show a fraction. -/
def floatFormat : Number.FloatFormat := ⟨-3, 16, "e", "NaN", "inf"⟩

mutual

def text : Value → String
  | null => "null"
  | bool b => if b then "true" else "false"
  | int i => toString i.toInt
  | float x => floatFormat.text x
  | string s => Text.quoted s
  | uuid u => u.text
  | instant t => t.text
  | enum type name => type ++ "." ++ name
  | list items => "[" ++ ", ".intercalate (texts items) ++ "]"
  | record type _ => "value(" ++ type ++ ")"

def texts : List Value → List String
  | [] => []
  | v :: vs => v.text :: texts vs

end

end QueryTree.Value
