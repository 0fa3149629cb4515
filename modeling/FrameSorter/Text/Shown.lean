import FrameSorter.Text.Unseen

/-!
# Texts in messages

How a message shows a text that it found (`Text.shown`): in quotation marks, with a backslash
before quotation marks and backslashes, a letter for the common controls, and the code point of every
other character that cannot be seen by itself.
-/

set_option autoImplicit false
set_option relaxedAutoImplicit false

namespace FrameSorter.Text

/-- How a message shows one character of a text. -/
def shownCharacter (c : Char) : List Char :=
  if c = '"' then ['\\', '"']
  else if c = '\\' then ['\\', '\\']
  else if c = '\x00' then ['\\', '0']
  else if c = '\t' then ['\\', 't']
  else if c = '\r' then ['\\', 'r']
  else if c = '\n' then ['\\', 'n']
  else if isUnseen c then ['\\', 'u', '\x7b'] ++ Nat.toDigits 16 c.toNat ++ ['\x7d']
  else [c]

/-- How a message shows a text. -/
def shown (text : String) : String :=
  String.ofList ('"' :: (text.toList.flatMap shownCharacter ++ ['"']))

end FrameSorter.Text
