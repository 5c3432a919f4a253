import BranchingStory.Config.Basic
import BranchingStory.Json.Token

/-!
# Settings files

A settings file is TOML 1.0 text that assigns strings and integers to keys at its top level. Tables,
arrays, dotted keys and values of other types have no place in a configuration, so a file that holds
any is refused like one with an error in it. All four forms of strings and of integers are read.
-/

namespace BranchingStory

namespace SettingsFile

open Json (hexValue? digitsValue)

/-- A value that a settings file assigns. -/
inductive Setting where
  | text (s : String)
  | number (i : Int)
  deriving DecidableEq, Repr

/-- Blanks within a line. -/
def isGap (c : Char) : Bool := c == ' ' || c == '\t'

/-- Characters of comments and of single-line literal strings: no controls but the tab. -/
def isPlain (c : Char) : Bool :=
  c == '\t' || (decide (0x20 ≤ c.toNat) && decide (c.toNat ≤ 0x7e)) || decide (0x80 ≤ c.toNat)

/-- Characters of keys without quotes. -/
def isKeyChar (c : Char) : Bool := c.isAlphanum || c == '-' || c == '_'

/-- The text behind blanks. -/
def skipGap (text : List Char) : List Char := text.dropWhile isGap

/-- The text behind a line end. -/
def newline? : List Char → Option (List Char)
  | '\n' :: rest => some rest
  | '\r' :: '\n' :: rest => some rest
  | _ => none

/-- The text behind the rest of a line that holds nothing but blanks and a comment. -/
def lineEnd? (text : List Char) : Option (List Char) :=
  let afterComment :=
    match skipGap text with
    | '#' :: rest => rest.dropWhile isPlain
    | rest => rest
  if afterComment.isEmpty then some [] else newline? afterComment

/-- The number that hexadecimal digits stand for, if all are. -/
def hexNumber? (digits : List Char) : Option Nat :=
  digits.foldl (fun n d => match n, hexValue? d with
    | some n, some v => some (16 * n + v)
    | _, _ => none) (some 0)

/-- The character of a code point given in hexadecimal; surrogates are none. -/
def codeChar? (digits : List Char) : Option Char :=
  match hexNumber? digits with
  | some n => if n.isValidChar then some (Char.ofNat n) else none
  | none => none

/-- The character of a one-letter escape. -/
def escapeChar? (c : Char) : Option Char :=
  match c with
  | 'b' => some '\x08'
  | 't' => some '\t'
  | 'n' => some '\n'
  | 'f' => some '\x0c'
  | 'r' => some '\r'
  | '"' => some '"'
  | '\\' => some '\\'
  | _ => none

/-- A character in front of what was read behind it. -/
def before? (c : Option Char) (rest : Option (List Char × List Char)) :
    Option (List Char × List Char) :=
  match c, rest with
  | some c, some (chars, text) => some (c :: chars, text)
  | _, _ => none

/-- The characters of a string up to its closing quote, and the text behind it. -/
def basic? : List Char → Option (List Char × List Char)
  | [] => none
  | '"' :: text => some ([], text)
  | '\\' :: 'u' :: a :: b :: c :: d :: text => before? (codeChar? [a, b, c, d]) (basic? text)
  | '\\' :: 'U' :: a :: b :: c :: d :: e :: f :: g :: h :: text =>
    before? (codeChar? [a, b, c, d, e, f, g, h]) (basic? text)
  | '\\' :: c :: text => before? (escapeChar? c) (basic? text)
  | c :: text => if isPlain c then before? (some c) (basic? text) else none

/-- The characters of a literal string up to its closing quote, and the text behind it. -/
def literal? : List Char → Option (List Char × List Char)
  | [] => none
  | '\'' :: text => some ([], text)
  | c :: text => if isPlain c then before? (some c) (literal? text) else none

/-- A backslash that ends a line joins it to the next text. -/
def joinsLines (text : List Char) : Bool := (newline? (skipGap text)).isSome

/-- The characters of a string of several lines up to its closing quotes, and the text behind them.
Up to two quotes may stand right before the closing ones. While joining lines, blanks and line ends
are passed over. -/
def basicLines? (joining : Bool) : List Char → Option (List Char × List Char)
  | [] => none
  | '"' :: '"' :: '"' :: '"' :: '"' :: text => some (['"', '"'], text)
  | '"' :: '"' :: '"' :: '"' :: text => some (['"'], text)
  | '"' :: '"' :: '"' :: text => some ([], text)
  | '\\' :: 'u' :: a :: b :: c :: d :: text =>
    before? (codeChar? [a, b, c, d]) (basicLines? false text)
  | '\\' :: 'U' :: a :: b :: c :: d :: e :: f :: g :: h :: text =>
    before? (codeChar? [a, b, c, d, e, f, g, h]) (basicLines? false text)
  | '\\' :: c :: text =>
    if joinsLines (c :: text) then basicLines? true (c :: text)
    else before? (escapeChar? c) (basicLines? false text)
  | '\r' :: '\n' :: text =>
    if joining then basicLines? true text else before? (some '\n') (basicLines? false text)
  | '\n' :: text =>
    if joining then basicLines? true text else before? (some '\n') (basicLines? false text)
  | c :: text =>
    if joining && isGap c then basicLines? true text
    else if isPlain c then before? (some c) (basicLines? false text)
    else none

/-- The characters of a literal string of several lines up to its closing quotes, and the text
behind them. -/
def literalLines? : List Char → Option (List Char × List Char)
  | [] => none
  | '\'' :: '\'' :: '\'' :: '\'' :: '\'' :: text => some (['\'', '\''], text)
  | '\'' :: '\'' :: '\'' :: '\'' :: text => some (['\''], text)
  | '\'' :: '\'' :: '\'' :: text => some ([], text)
  | '\r' :: '\n' :: text => before? (some '\n') (literalLines? text)
  | '\n' :: text => before? (some '\n') (literalLines? text)
  | c :: text => if isPlain c then before? (some c) (literalLines? text) else none

/-- A line end right behind the opening quotes does not count. -/
def skipFirstLineEnd (text : List Char) : List Char := (newline? text).getD text

/-- Digits with single underscores between them, without the underscores. -/
def joinDigits? (isDigit : Char → Bool) : List Char → Option (List Char)
  | [] => none
  | [d] => if isDigit d then some [d] else none
  | d :: '_' :: rest => if isDigit d then (joinDigits? isDigit rest).map (d :: ·) else none
  | d :: rest => if isDigit d then (joinDigits? isDigit rest).map (d :: ·) else none

/-- The number that digits of a base stand for. -/
def valueInBase (base : Nat) (digits : List Char) : Nat :=
  digits.foldl (fun n d => base * n + (hexValue? d).getD 0) 0

/-- Decimal digits without a superfluous leading zero. -/
def decimal? (text : List Char) : Option Nat :=
  match joinDigits? Char.isDigit text with
  | some digits => if Json.isWhole digits then some (digitsValue digits) else none
  | none => none

/-- The integer that a word is; only decimal ones have a sign, and all fit into 64 bits. -/
def integer? (word : List Char) : Option Int :=
  let inBase (base : Nat) (text : List Char) : Option Int :=
    (joinDigits? (fun c => match hexValue? c with
      | some v => decide (v < base)
      | none => false) text).map fun digits => (valueInBase base digits : Int)
  let value : Option Int :=
    match word with
    | '0' :: 'x' :: digits => inBase 16 digits
    | '0' :: 'o' :: digits => inBase 8 digits
    | '0' :: 'b' :: digits => inBase 2 digits
    | '-' :: digits => (decimal? digits).map fun n => -(n : Int)
    | '+' :: digits => (decimal? digits).map fun n => (n : Int)
    | digits => (decimal? digits).map fun n => (n : Int)
  value.filter fun i => i.toInt64.toInt == i

/-- Characters that end a word. -/
def endsWord (c : Char) : Bool := isGap c || c == '\n' || c == '\r' || c == '#'

/-- A string as a setting. -/
def asText (read : Option (List Char × List Char)) : Option (Setting × List Char) :=
  read.map fun r => (.text (String.ofList r.1), r.2)

/-- The value at the start of a text, and the text behind it. -/
def value? : List Char → Option (Setting × List Char)
  | '"' :: '"' :: '"' :: text => asText (basicLines? false (skipFirstLineEnd text))
  | '\'' :: '\'' :: '\'' :: text => asText (literalLines? (skipFirstLineEnd text))
  | '"' :: text => asText (basic? text)
  | '\'' :: text => asText (literal? text)
  | text =>
    (integer? (text.takeWhile fun c => !endsWord c)).map fun i =>
      (.number i, text.dropWhile fun c => !endsWord c)

/-- The key at the start of a text, and the text behind it. -/
def key? : List Char → Option (List Char × List Char)
  | '"' :: text => basic? text
  | '\'' :: text => literal? text
  | text =>
    let key := text.takeWhile isKeyChar
    if key.isEmpty then none else some (key, text.dropWhile isKeyChar)

/-- The assignment on a line, and the text behind the line. -/
def assignment? (text : List Char) : Option ((String × Setting) × List Char) :=
  match key? text with
  | none => none
  | some (key, afterKey) =>
    match skipGap afterKey with
    | '=' :: afterEquals =>
      match value? (skipGap afterEquals) with
      | none => none
      | some (setting, afterValue) =>
        (lineEnd? afterValue).map fun rest => ((String.ofList key, setting), rest)
    | _ => none

/-- The assignments of a text in order. Every line takes at least one character. -/
def assignments? (text : List Char) : Option (List (String × Setting)) :=
  match lineEnd? text with
  | some [] => some []
  | some rest => if rest.length < text.length then assignments? rest else none
  | none =>
    match assignment? (skipGap text) with
    | none => none
    | some (assignment, rest) =>
      if rest.length < text.length then (assignments? rest).map (assignment :: ·) else none
termination_by text.length

/-- The text without a byte order mark at its start. -/
def skipMark : List Char → List Char
  | '\ufeff' :: text => text
  | text => text

/-- One assignment changes a configuration; keys and types are checked. -/
def assign? (c : Config) : String × Setting → Option Config
  | (key, .text s) =>
    if key = "root_id" then some { c with rootId := s }
    else if key = "child_id_prefix" then some { c with childIdStart := s }
    else if key = "rename_infix" then some { c with renameInfix := s }
    else none
  | (key, .number i) =>
    if key = "rename_suffix_len" ∧ 0 ≤ i then some { c with renameSuffixLength := i.toNat }
    else none

/-- All assignments change a configuration one after the other. -/
def assignAll? (c : Config) : List (String × Setting) → Option Config
  | [] => some c
  | a :: rest =>
    match assign? c a with
    | some next => assignAll? next rest
    | none => none

/-- The configuration that a settings file describes; no key may be assigned twice. -/
def config? (text : String) : Option Config :=
  match assignments? (skipMark text.toList) with
  | some found =>
    if (found.map Prod.fst).Nodup then assignAll? .default found else none
  | none => none

end SettingsFile

/-- Why a settings file is refused. -/
inductive SettingsError where
  /-- It is not read as a configuration. -/
  | unreadable
  /-- Its configuration is not valid. -/
  | invalid (fault : ConfigFault)
  deriving DecidableEq, Repr

/-- The valid configuration that a settings file describes. -/
def Config.ofSettingsFile (text : String) : Except SettingsError Config :=
  match SettingsFile.config? text with
  | none => .error .unreadable
  | some c =>
    match c.fault? with
    | some fault => .error (.invalid fault)
    | none => .ok c

end BranchingStory
