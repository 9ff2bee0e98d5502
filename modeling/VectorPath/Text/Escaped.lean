import VectorPath.Text.Quoted

/-!
# Texts in JSON

A text as a JSON string in ASCII: quote and backslash are escaped, five control characters have
escapes of their own, and every other character outside the printable ASCII range is written by
its UTF-16 units. A character beyond the basic plane therefore takes two escapes.
-/

namespace VectorPath.Text

/-- The UTF-16 units of a code point. -/
def utf16Units (n : Nat) : List Nat :=
  if n < 0x10000 then [n]
  else [0xd800 + (n - 0x10000) / 0x400, 0xdc00 + (n - 0x10000) % 0x400]

def escapeChar (c : Char) : List Char :=
  if c = '"' ∨ c = '\\' then ['\\', c]
  else if c = '\n' then ['\\', 'n']
  else if c = '\r' then ['\\', 'r']
  else if c = '\t' then ['\\', 't']
  else if c = '\x0c' then ['\\', 'f']
  else if c = '\x08' then ['\\', 'b']
  else if 0x20 ≤ c.toNat ∧ c.toNat < 0x7f then [c]
  else (utf16Units c.toNat).flatMap fun unit => '\\' :: 'u' :: hexDigits 4 unit

def escaped (s : String) : String :=
  String.ofList ('"' :: s.toList.flatMap escapeChar ++ ['"'])

end VectorPath.Text
