/-!
# Blank text and letter case

White space is the Unicode property of that name, twenty-five code points. Letter case is folded for
the Latin letters of ASCII only, so `é` and `É` stay different.
-/

namespace BranchingStory.Text

/-- The character has the Unicode property `White_Space`. -/
def isSpace (c : Char) : Bool :=
  let code := c.toNat
  (decide (0x09 ≤ code) && decide (code ≤ 0x0d)) || code == 0x20 || code == 0x85 || code == 0xa0 ||
    code == 0x1680 || (decide (0x2000 ≤ code) && decide (code ≤ 0x200a)) || code == 0x2028 ||
    code == 0x2029 || code == 0x202f || code == 0x205f || code == 0x3000

/-- The text is empty or holds white space only. -/
def isBlank (s : String) : Bool := s.toList.all isSpace

/-- The text with the ASCII capitals made small. -/
def foldCase (s : String) : List Char := s.toList.map Char.toLower

/-- The two texts differ at most in the case of ASCII letters. -/
def sameLetters (s t : String) : Bool := foldCase s == foldCase t

end BranchingStory.Text
