import BranchingStory.Binary64.Style
import BranchingStory.Text.Quoted
import BranchingStory.Value.Basic

/-!
# Showing values

The text of a value for a reader's eye: texts are quoted, references carry an at sign, and the names
in maps stand bare.
-/

namespace BranchingStory.Value

mutual

/-- The text of a value. -/
def shown : Value → List Char
  | null => ['n', 'u', 'l', 'l']
  | bool true => ['t', 'r', 'u', 'e']
  | bool false => ['f', 'a', 'l', 's', 'e']
  | int i =>
    if i < 0 then '-' :: Nat.toDigits 10 i.toInt.natAbs else Nat.toDigits 10 i.toInt.natAbs
  | float x => x.plainText
  | text s => (Text.quoted s).toList
  | list items => '[' :: shownItems items
  | ref target => '@' :: target.display.toList
  | map entries => '\x7b' :: shownEntries entries

/-- The items of a list with its closing bracket. -/
def shownItems : List Value → List Char
  | [] => [']']
  | [v] => shown v ++ [']']
  | v :: rest => shown v ++ ',' :: ' ' :: shownItems rest

/-- The entries of a map with its closing brace. -/
def shownEntries : List (String × Value) → List Char
  | [] => ['\x7d']
  | [(key, v)] => key.toList ++ ':' :: ' ' :: shown v ++ ['\x7d']
  | (key, v) :: rest => key.toList ++ ':' :: ' ' :: shown v ++ ',' :: ' ' :: shownEntries rest

end

/-- The text of a value as a string. -/
def display (v : Value) : String := String.ofList v.shown

end BranchingStory.Value
