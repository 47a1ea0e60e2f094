import QueryTree.Toml.Text

/-! Documents of TOML: keys, values, and lines with entries or headers. -/

namespace QueryTree.Toml

def isBare (c : Char) : Bool :=
  c.isDigit || ('a' ≤ c && c ≤ 'z') || ('A' ≤ c && c ≤ 'Z') || c == '_' || c == '-'

def skipBlanks (cs : List Char) : List Char := cs.dropWhile isBlankChar

def simpleKey? : List Char → Option (String × List Char)
  | '"' :: rest => (basic rest).map fun (text, rest) => (String.ofList text, rest)
  | '\'' :: rest => (literal rest).map fun (text, rest) => (String.ofList text, rest)
  | cs =>
    let text := cs.takeWhile isBare
    if text.isEmpty then none else some (String.ofList text, cs.dropWhile isBare)

def maxParts : Nat := 80

/-- The parts of a dotted key, the last one apart, and what follows after blanks. The first argument
bounds the number of parts. -/
def key? : Nat → List Char → Option ((List String × String) × List Char)
  | 0, _ => none
  | n + 1, cs => do
    let (part, rest) ← simpleKey? cs
    match skipBlanks rest with
    | '.' :: rest =>
      let ((front, last), rest) ← key? n (skipBlanks rest)
      some ((part :: front, last), rest)
    | rest => some (([], part), rest)

/-- A comment, if there is one, up to the end of its line. -/
def skipComment? : List Char → Option (List Char)
  | '#' :: rest =>
    match rest.dropWhile isPlain with
    | [] => some []
    | '\n' :: rest => some ('\n' :: rest)
    | '\r' :: '\n' :: rest => some ('\r' :: '\n' :: rest)
    | _ => none
  | cs => some cs

/-- Skips blanks, comments and at most so many line ends. -/
def skipUpTo? : Nat → List Char → Option (List Char)
  | 0, _ => none
  | n + 1, cs => do
    match ← skipComment? (skipBlanks cs) with
    | '\n' :: rest => skipUpTo? n rest
    | '\r' :: '\n' :: rest => skipUpTo? n rest
    | rest => some rest

/-- Skips the blanks, comments and line ends inside an array or an inline table. -/
def skipLines? (cs : List Char) : Option (List Char) := skipUpTo? (cs.length + 1) cs

abbrev Reader (α : Type) := List Char → Option (α × List Char)

/-- The items of an array after its bracket; a comma may follow the last one. -/
def arrayItems (value : Reader Item) : Nat → Reader (List Item)
  | 0, _ => none
  | n + 1, cs => do
    match ← skipLines? cs with
    | ']' :: rest => some ([], rest)
    | cs =>
      let (item, rest) ← value cs
      match ← skipLines? rest with
      | ',' :: rest =>
        let (items, rest) ← arrayItems value n rest
        some (item :: items, rest)
      | ']' :: rest => some ([item], rest)
      | _ => none

/-- A key and its value; `gap` skips what may stand around the equals sign. -/
def keyValue (gap : List Char → Option (List Char)) (value : Reader Item) :
    Reader ((List String × String) × Item) := fun cs => do
  let (key, rest) ← key? maxParts cs
  match ← gap rest with
  | '=' :: rest =>
    let (item, rest) ← value (← gap rest)
    some ((key, item), rest)
  | _ => none

/-- The entries of an inline table after its brace, added to those before them; a comma may follow
the last one. -/
def inlineEntries (value : Reader Item) : Nat → Entries → Reader Entries
  | 0, _, _ => none
  | n + 1, es, cs => do
    match ← skipLines? cs with
    | '}' :: rest => some (es, rest)
    | cs =>
      let (((front, key), item), rest) ← keyValue skipLines? value cs
      let es ← es.addDotted front key item
      match ← skipLines? rest with
      | ',' :: rest => inlineEntries value n es rest
      | '}' :: rest => some (es, rest)
      | _ => none

/-- A value whose arrays and inline tables nest at most `depth` deep. -/
def value : Nat → Reader Item
  | depth, cs =>
    match cs with
    | '[' :: rest =>
      match depth with
      | 0 => none
      | depth + 1 => do
        let (items, rest) ← arrayItems (value depth) (rest.length + 1) rest
        some (.array false items, rest)
    | '{' :: rest =>
      match depth with
      | 0 => none
      | depth + 1 => do
        let (es, rest) ← inlineEntries (value depth) (rest.length + 1) [] rest
        some (.table .inline es, rest)
    | '"' :: _ | '\'' :: _ =>
      (string? cs).map fun (text, rest) => (.string (String.ofList text), rest)
    | _ =>
      let (text, rest) := word cs
      (scalar? text).map (·, rest)

def maxDepth : Nat := 80

/-- What a document holds so far, and the table that entries go into. -/
structure Draft where
  entries : Entries
  current : List String

def Draft.open? (d : Draft) (array : Bool) (front : List String) (key : String) : Option Draft := do
  let es ← if array then d.entries.openArrayTable front key else d.entries.openTable front key
  some ⟨es, front ++ [key]⟩

def Draft.add? (d : Draft) (front : List String) (key : String) (item : Item) : Option Draft := do
  let es ← d.entries.within false (fun _ es => es.addDotted front key item) d.current .header
  some { d with entries := es }

/-- A header or an entry, if the line has one. -/
def expression (d : Draft) : Reader Draft
  | '[' :: '[' :: rest => do
    match ← key? maxParts (skipBlanks rest) with
    | ((front, key), ']' :: ']' :: rest) => some (← d.open? true front key, rest)
    | _ => none
  | '[' :: rest => do
    match ← key? maxParts (skipBlanks rest) with
    | ((front, key), ']' :: rest) => some (← d.open? false front key, rest)
    | _ => none
  | [] => some (d, [])
  | c :: cs =>
    if c == '#' || c == '\n' || c == '\r' then some (d, c :: cs)
    else do
      let (((front, key), item), rest) ← keyValue (some ∘ skipBlanks) (value maxDepth) (c :: cs)
      some (← d.add? front key item, rest)

def lines : Nat → Draft → List Char → Option Entries
  | 0, _, _ => none
  | n + 1, d, cs => do
    let (d, rest) ← expression d (skipBlanks cs)
    match ← skipComment? (skipBlanks rest) with
    | [] => some d.entries
    | '\n' :: rest => lines n d rest
    | '\r' :: '\n' :: rest => lines n d rest
    | _ => none

/-- A byte order mark in front of a document is no part of it. -/
def dropMark : List Char → List Char
  | '\ufeff' :: rest => rest
  | cs => cs

/-- The tables of a document; none if the text is malformed. -/
def parse? (text : String) : Option Entries :=
  let cs := dropMark text.toList
  lines (cs.length + 1) ⟨[], []⟩ cs

end QueryTree.Toml
