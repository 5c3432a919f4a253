import BranchingStory.Json.Numeral

/-!
# Tokens of a document

The text of a document is cut into tokens in one pass over its characters. Between tokens there may
be blanks, tabs and line ends. A maximal run of letters, digits, signs and points is one word and
has to be a literal or a numeral. A string token is read even when a lone surrogate leaves it
without a value.
-/

namespace BranchingStory.Json

/-- A token. -/
inductive Token where
  | openArray
  | closeArray
  | openObject
  | closeObject
  | comma
  | colon
  | null
  | bool (b : Bool)
  /-- A numeral; without a value when it lies beyond all numbers. -/
  | number (n : Option Number)
  /-- A string; without a value when it holds a lone surrogate. -/
  | string (s : Option String)
  deriving DecidableEq, Repr

/-- A piece of a string: a character, or an escaped sixteen-bit code unit. -/
inductive Piece where
  | char (c : Char)
  | unit (u : Nat)
  deriving DecidableEq, Repr

/-- The code unit opens a surrogate pair. -/
def isHighSurrogate (u : Nat) : Bool := decide (0xd800 ≤ u) && decide (u ≤ 0xdbff)

/-- The code unit closes a surrogate pair. -/
def isLowSurrogate (u : Nat) : Bool := decide (0xdc00 ≤ u) && decide (u ≤ 0xdfff)

/-- The characters of a string. Two escaped surrogates in a row make one character, and any other
surrogate makes none. -/
def pieceChars? : List Piece → Option (List Char)
  | [] => some []
  | .char c :: rest => (pieceChars? rest).map (c :: ·)
  | .unit high :: .unit low :: rest =>
    if isHighSurrogate high && isLowSurrogate low then
      (pieceChars? rest).map
        (Char.ofNat (0x10000 + (high - 0xd800) * 0x400 + (low - 0xdc00)) :: ·)
    else if isHighSurrogate high || isLowSurrogate high then none
    else (pieceChars? (.unit low :: rest)).map (Char.ofNat high :: ·)
  | .unit u :: rest =>
    if isHighSurrogate u || isLowSurrogate u then none
    else (pieceChars? rest).map (Char.ofNat u :: ·)

/-- The character that a one-letter escape stands for. -/
def escapedChar? (c : Char) : Option Char :=
  match c with
  | '"' => some '"'
  | '\\' => some '\\'
  | '/' => some '/'
  | 'b' => some '\x08'
  | 'f' => some '\x0c'
  | 'n' => some '\n'
  | 'r' => some '\r'
  | 't' => some '\t'
  | _ => none

/-- The value of a hexadecimal digit of either case. -/
def hexValue? (c : Char) : Option Nat :=
  if c.isDigit then some (c.toNat - '0'.toNat)
  else if 'a' ≤ c ∧ c ≤ 'f' then some (c.toNat - 'a'.toNat + 10)
  else if 'A' ≤ c ∧ c ≤ 'F' then some (c.toNat - 'A'.toNat + 10)
  else none

/-- Where the scanner stands. Characters and pieces are held newest first. -/
inductive Scanner where
  /-- Between two tokens. -/
  | between
  /-- In a word. -/
  | word (chars : List Char)
  /-- In a string. -/
  | text (pieces : List Piece)
  /-- In a string behind a backslash. -/
  | escape (pieces : List Piece)
  /-- In a string's code unit, with this many digits to come. -/
  | codeUnit (pieces : List Piece) (left value : Nat)

/-- The token that a word is. -/
def wordToken? (word : List Char) : Option Token :=
  if word = ['n', 'u', 'l', 'l'] then some .null
  else if word = ['t', 'r', 'u', 'e'] then some (.bool true)
  else if word = ['f', 'a', 'l', 's', 'e'] then some (.bool false)
  else (numeral? word).map fun n => .number n.value?

/-- The characters of words. -/
def isWordChar (c : Char) : Bool := c.isAlphanum || c == '+' || c == '-' || c == '.'

/-- The scanner between tokens meets a character. -/
def meet? (c : Char) : Option (Scanner × List Token) :=
  match c with
  | ' ' | '\t' | '\n' | '\r' => some (.between, [])
  | '[' => some (.between, [.openArray])
  | ']' => some (.between, [.closeArray])
  | '\x7b' => some (.between, [.openObject])
  | '\x7d' => some (.between, [.closeObject])
  | ',' => some (.between, [.comma])
  | ':' => some (.between, [.colon])
  | '"' => some (.text [], [])
  | _ => if isWordChar c then some (.word [c], []) else none

/-- One character moves the scanner and completes the tokens given, in order. -/
def Scanner.step? (c : Char) : Scanner → Option (Scanner × List Token)
  | .between => meet? c
  | .word chars =>
    if isWordChar c then some (.word (c :: chars), [])
    else
      match wordToken? chars.reverse, meet? c with
      | some token, some (next, tokens) => some (next, token :: tokens)
      | _, _ => none
  | .text pieces =>
    if c = '"' then
      some (.between, [.string ((pieceChars? pieces.reverse).map String.ofList)])
    else if c = '\\' then some (.escape pieces, [])
    else if c.toNat < 0x20 then none
    else some (.text (.char c :: pieces), [])
  | .escape pieces =>
    if c = 'u' then some (.codeUnit pieces 4 0, [])
    else (escapedChar? c).map fun d => (.text (.char d :: pieces), [])
  | .codeUnit pieces left value =>
    (hexValue? c).map fun d =>
      if left ≤ 1 then (.text (.unit (16 * value + d) :: pieces), [])
      else (.codeUnit pieces (left - 1) (16 * value + d), [])

/-- The tokens completed by the end of the text. -/
def Scanner.finish? : Scanner → Option (List Token)
  | .between => some []
  | .word chars => (wordToken? chars.reverse).map fun token => [token]
  | _ => none

/-- The tokens of the rest of a text; those found before are held newest first. -/
def scan? (scanner : Scanner) (found : List Token) : List Char → Option (List Token)
  | [] => scanner.finish?.map fun tokens => (tokens.reverse ++ found).reverse
  | c :: rest =>
    match scanner.step? c with
    | some (next, tokens) => scan? next (tokens.reverse ++ found) rest
    | none => none

/-- The tokens of a text. -/
def tokens? (text : List Char) : Option (List Token) := scan? .between [] text

end BranchingStory.Json
