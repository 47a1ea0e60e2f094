/-! Text that may break off: what was written, and why writing stopped if it did. -/

namespace QueryTree

/-- A text and, if it broke off, the reason. -/
structure Written where
  text : String
  fault : Option String
  deriving DecidableEq, Repr

namespace Written

def ofText (s : String) : Written := ⟨s, none⟩

def broken (reason : String) : Written := ⟨"", some reason⟩

/-- Nothing is written after a break. -/
def append (a b : Written) : Written :=
  match a.fault with
  | some _ => a
  | none => ⟨a.text ++ b.text, b.fault⟩

instance : Append Written := ⟨append⟩

instance : Coe String Written := ⟨ofText⟩

def joinTail (separator : String) : List Written → Written
  | [] => ""
  | w :: ws => separator ++ w ++ joinTail separator ws

def join (separator : String) : List Written → Written
  | [] => ""
  | w :: ws => w ++ joinTail separator ws

/-- The whole text; a break leaves a mark at its end. -/
def finish (w : Written) : String :=
  match w.fault with
  | none => w.text
  | some reason => w.text ++ "<rendering failed: " ++ reason ++ ">"

end Written

end QueryTree
