/-
This file shows a string between double quotes on one line, as messages and diagnostic displays
do. The quote and the backslash are written after a backslash, the tab, the two line end
characters and the null character by their letter or digit, and every other character that has
no visible form of its own by its number in lower-case hexadecimal.
-/

import Scoresheet.Text.Printable

namespace Scoresheet.Quoted

/-- The digits of a number in base sixteen, most significant first. -/
def hexadecimal (value : Nat) : List Char := Nat.toDigits 16 value

/-- A character as it is shown between quotes. -/
def shownChar (char : Char) : List Char :=
  if char = '"' then ['\\', '"']
  else if char = '\\' then ['\\', '\\']
  else if char = '\t' then ['\\', 't']
  else if char = '\n' then ['\\', 'n']
  else if char = '\r' then ['\\', 'r']
  else if char.toNat = 0 then ['\\', '0']
  else if isPrintable char then [char]
  else ['\\', 'u', '\x7b'] ++ hexadecimal char.toNat ++ ['\x7d']

/-- The string between double quotes. -/
def shown (text : String) : String :=
  String.ofList ('"' :: text.toList.flatMap shownChar ++ ['"'])

end Scoresheet.Quoted
