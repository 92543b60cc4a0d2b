import Chiptune.Text.Invisible
/-!
# Quoted text

Text between double quotes. Quotes and backslashes take a backslash, tab, carriage return,
line feed and NUL have short forms, and characters that are not shown as they are appear by
number.
-/

set_option autoImplicit false

namespace Chiptune.Text

/-- Written form of a character inside quotes. -/
def quoteChar (c : Char) : List Char :=
  if c = '"' then ['\\', '"']
  else if c = '\\' then ['\\', '\\']
  else if c = '\t' then ['\\', 't']
  else if c = '\r' then ['\\', 'r']
  else if c = '\n' then ['\\', 'n']
  else if c = '\x00' then ['\\', '0']
  else if isInvisible c then ['\\', 'u', '\x7b'] ++ Nat.toDigits 16 c.toNat ++ ['\x7d']
  else [c]

/-- Written form of a text, with its quotes. -/
def quote (cs : List Char) : String := String.ofList ('"' :: cs.flatMap quoteChar ++ ['"'])

end Chiptune.Text
