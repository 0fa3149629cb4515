/-!
# JSON string literals

The written form of a text in a JSON document (`Json.literal`): the quotation mark, the backslash
and the control characters are escaped, five of the control characters by a letter and the others by
four hexadecimal digits, and every other character stands for itself.
-/

set_option autoImplicit false
set_option relaxedAutoImplicit false

namespace FrameSorter.Json

/-- The hexadecimal digit of a number below sixteen, in lower case. -/
def hexDigit (n : Nat) : Char :=
  Nat.digitChar n

/-- How one character is written inside a literal. -/
def escapeCharacter (c : Char) : List Char :=
  if c = '"' then ['\\', '"']
  else if c = '\\' then ['\\', '\\']
  else if c = '\x08' then ['\\', 'b']
  else if c = '\x0c' then ['\\', 'f']
  else if c = '\n' then ['\\', 'n']
  else if c = '\r' then ['\\', 'r']
  else if c = '\t' then ['\\', 't']
  else if c.toNat < 0x20 then ['\\', 'u', '0', '0', hexDigit (c.toNat / 16), hexDigit (c.toNat % 16)]
  else [c]

/-- A text as a JSON string literal. -/
def literal (text : String) : String :=
  String.ofList ('"' :: (text.toList.flatMap escapeCharacter ++ ['"']))

end FrameSorter.Json
