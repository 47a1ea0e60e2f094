import QueryTree.Text.Printable

/-! Quoted texts: a text in double quotes, with every character in it visible. -/

namespace QueryTree.Text

/-- Lowercase hexadecimal digits without leading zeros. -/
def hex (n : Nat) : String := String.ofList (Nat.toDigits 16 n)

/-- A character written by its number, as in `\u{301}`. -/
def numbered (c : Char) : String := "\\u\x7b" ++ hex c.toNat ++ "\x7d"

def escaped (c : Char) : String :=
  if c = '\x00' then "\\0"
  else if c = '\t' then "\\t"
  else if c = '\r' then "\\r"
  else if c = '\n' then "\\n"
  else if c = '"' then "\\\""
  else if c = '\\' then "\\\\"
  else if CharSet.combining.contains c || CharSet.unprintable.contains c then numbered c
  else c.toString

def quoted (s : String) : String :=
  "\"" ++ String.join (s.toList.map escaped) ++ "\""

end QueryTree.Text
