import QueryTree.Toml.Scalar

/-! Strings of TOML: basic ones with escapes and literal ones without, each on one line or on
several. -/

namespace QueryTree.Toml

/-- Text may hold tabs but no other control character. -/
def isPlain (c : Char) : Bool := c == '\t' || (' ' ≤ c && c != '\x7f')

def isBlankChar (c : Char) : Bool := c == ' ' || c == '\t'

def scalarValue? (cs : List Char) : Option Char :=
  let n := ofDigits 16 cs
  if cs.all isHex && Nat.isValidChar n then some (Char.ofNat n) else none

def escape? : Char → Option Char
  | 'b' => some '\x08'
  | 't' => some '\t'
  | 'n' => some '\n'
  | 'f' => some '\x0c'
  | 'r' => some '\r'
  | 'e' => some '\x1b'
  | '"' => some '"'
  | '\\' => some '\\'
  | _ => none

def before (c : Char) (read : Option (List Char × List Char)) : Option (List Char × List Char) :=
  read.map fun (text, rest) => (c :: text, rest)

/-- A basic string after its first quote, and what follows it. -/
def basic : List Char → Option (List Char × List Char)
  | [] => none
  | '"' :: rest => some ([], rest)
  | '\\' :: 'x' :: a :: b :: rest => do before (← scalarValue? [a, b]) (basic rest)
  | '\\' :: 'u' :: a :: b :: c :: d :: rest => do
    before (← scalarValue? [a, b, c, d]) (basic rest)
  | '\\' :: 'U' :: a :: b :: c :: d :: e :: f :: g :: h :: rest => do
    before (← scalarValue? [a, b, c, d, e, f, g, h]) (basic rest)
  | '\\' :: c :: rest => do before (← escape? c) (basic rest)
  | c :: rest => if isPlain c then before c (basic rest) else none

def literal : List Char → Option (List Char × List Char)
  | [] => none
  | '\'' :: rest => some ([], rest)
  | c :: rest => if isPlain c then before c (literal rest) else none

/-- The end of a string of several lines: up to two quotes may stand right before it. -/
def closing (quote : Char) (rest : List Char) : List Char × List Char :=
  let extra := (rest.take 2).takeWhile (· == quote)
  (extra, rest.drop extra.length)

/-- Whether a line ends here, after blanks. -/
def endsLine (cs : List Char) : Bool :=
  match cs.dropWhile isBlankChar with
  | '\n' :: _ | '\r' :: '\n' :: _ => true
  | _ => false

/-- A basic string of several lines after its first quotes. A backslash at the end of a line skips
all blanks and line ends that follow. -/
def basicLines (skipping : Bool) : List Char → Option (List Char × List Char)
  | [] => none
  | '"' :: '"' :: '"' :: rest => some (closing '"' rest)
  | '\r' :: '\n' :: rest =>
    if skipping then basicLines true rest
    else before '\r' (before '\n' (basicLines false rest))
  | '\\' :: 'x' :: a :: b :: rest => do before (← scalarValue? [a, b]) (basicLines false rest)
  | '\\' :: 'u' :: a :: b :: c :: d :: rest => do
    before (← scalarValue? [a, b, c, d]) (basicLines false rest)
  | '\\' :: 'U' :: a :: b :: c :: d :: e :: f :: g :: h :: rest => do
    before (← scalarValue? [a, b, c, d, e, f, g, h]) (basicLines false rest)
  | '\\' :: c :: rest =>
    if endsLine (c :: rest) then
      if c == '\r' then basicLines true (c :: rest) else basicLines true rest
    else do before (← escape? c) (basicLines false rest)
  | c :: rest =>
    if skipping && (isBlankChar c || c == '\n') then basicLines true rest
    else if isPlain c || c == '\n' then before c (basicLines false rest)
    else none

def literalLines : List Char → Option (List Char × List Char)
  | [] => none
  | '\'' :: '\'' :: '\'' :: rest => some (closing '\'' rest)
  | '\r' :: '\n' :: rest => before '\r' (before '\n' (literalLines rest))
  | c :: rest => if isPlain c || c == '\n' then before c (literalLines rest) else none

/-- A line end right after the first quotes is no part of a string. -/
def dropLineEnd : List Char → List Char
  | '\n' :: rest => rest
  | '\r' :: '\n' :: rest => rest
  | cs => cs

/-- A string of any kind at the start of the text. -/
def string? : List Char → Option (List Char × List Char)
  | '"' :: '"' :: '"' :: rest => basicLines false (dropLineEnd rest)
  | '"' :: rest => basic rest
  | '\'' :: '\'' :: '\'' :: rest => literalLines (dropLineEnd rest)
  | '\'' :: rest => literal rest
  | _ => none

end QueryTree.Toml
