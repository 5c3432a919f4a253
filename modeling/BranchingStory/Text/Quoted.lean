import BranchingStory.Text.Hidden

/-!
# Quoted text

A text is shown between double quotes. A quote, a backslash and the usual controls are written with
a backslash, every other hidden character by its code point in braces, and the rest as it stands.
-/

namespace BranchingStory.Text

/-- The code point in lower-case hexadecimal without leading zeros, between braces. -/
def escapeCode (c : Char) : List Char :=
  ['\\', 'u', '\x7b'] ++ Nat.toDigits 16 c.toNat ++ ['\x7d']

/-- How one character is written between the quotes. -/
def quoteChar (c : Char) : List Char :=
  if c = '\x00' then ['\\', '0']
  else if c = '\t' then ['\\', 't']
  else if c = '\r' then ['\\', 'r']
  else if c = '\n' then ['\\', 'n']
  else if c = '"' then ['\\', '"']
  else if c = '\\' then ['\\', '\\']
  else if isHidden c then escapeCode c
  else [c]

/-- The text between double quotes. -/
def quoted (s : String) : String :=
  String.ofList ('"' :: s.toList.flatMap quoteChar ++ ['"'])

end BranchingStory.Text
