/-
This file writes a text between double quotes, so that nothing in it is
invisible. The quote and the backslash are escaped, the common control
characters have short names, and every other character that is not printable
is spelled by its code.
-/

import ByteStack.Text.Printable

namespace ByteStack.Text

/-- A character as it stands between double quotes. -/
def quotedCharacter (character : Char) : List Char :=
  if character = '\x00' then ['\\', '0']
  else if character = '\t' then ['\\', 't']
  else if character = '\r' then ['\\', 'r']
  else if character = '\n' then ['\\', 'n']
  else if character = '\\' then ['\\', '\\']
  else if character = '"' then ['\\', '"']
  else if isPrintable character then [character]
  else ['\\', 'u', '\x7b'] ++ Nat.toDigits 16 character.toNat ++ ['\x7d']

/-- A text between double quotes. -/
def quoted (text : String) : String :=
  String.ofList ('"' :: text.toList.flatMap quotedCharacter ++ ['"'])

end ByteStack.Text
