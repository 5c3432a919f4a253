import BranchingStory.Json.Basic

/-!
# Writing documents

A document is written without blanks. In strings the quote, the backslash and the controls below a
blank are escaped and all else stands as it is. What has no text of its own, an unreadable part or a
number that is not finite, is written `null`.
-/

namespace BranchingStory.Json

/-- How one character is written in a string. -/
def escapeChar (c : Char) : List Char :=
  if c = '"' then ['\\', '"']
  else if c = '\\' then ['\\', '\\']
  else if c = '\x08' then ['\\', 'b']
  else if c = '\x0c' then ['\\', 'f']
  else if c = '\n' then ['\\', 'n']
  else if c = '\r' then ['\\', 'r']
  else if c = '\t' then ['\\', 't']
  else if c.toNat < 0x20 then
    ['\\', 'u', '0', '0', Nat.digitChar (c.toNat / 16), Nat.digitChar (c.toNat % 16)]
  else [c]

/-- A string with its quotes. -/
def writeString (s : String) : List Char := '"' :: s.toList.flatMap escapeChar ++ ['"']

/-- An integer in decimal. -/
def writeInt (i : Int) : List Char :=
  if i < 0 then '-' :: Nat.toDigits 10 i.natAbs else Nat.toDigits 10 i.natAbs

/-- A number. -/
def Number.write : Number → List Char
  | .integer i => writeInt i
  | .float x => if x.isFinite then Binary64.dataStyle.text x else ['n', 'u', 'l', 'l']

mutual

/-- The text of a document. -/
def write : Json → List Char
  | .null => ['n', 'u', 'l', 'l']
  | .bool true => ['t', 'r', 'u', 'e']
  | .bool false => ['f', 'a', 'l', 's', 'e']
  | .number n => n.write
  | .string s => writeString s
  | .array items => '[' :: writeItems items
  | .object fields => '\x7b' :: writeFields fields
  | .unreadable => ['n', 'u', 'l', 'l']

/-- The items of an array with its closing bracket. -/
def writeItems : List Json → List Char
  | [] => [']']
  | [j] => write j ++ [']']
  | j :: rest => write j ++ ',' :: writeItems rest

/-- The fields of an object with its closing brace. -/
def writeFields : List (String × Json) → List Char
  | [] => ['\x7d']
  | [(key, j)] => writeString key ++ ':' :: write j ++ ['\x7d']
  | (key, j) :: rest => writeString key ++ ':' :: write j ++ ',' :: writeFields rest

end

/-- The text of a document as a string. -/
def render (j : Json) : String := String.ofList (write j)

end BranchingStory.Json
