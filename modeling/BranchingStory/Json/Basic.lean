import BranchingStory.Binary64.Style

/-!
# JSON documents

A document keeps the order of its fields and their repetitions, and tells whole numbers from others.
A part that is well formed but stands for no value is kept as `unreadable`: a reader that skips it
does not mind, and a reader that needs it fails.
-/

namespace BranchingStory

/-- A number of a document. -/
inductive Json.Number where
  /-- A number written without fraction and exponent that fits into 64 bits, signed or not. -/
  | integer (i : Int)
  /-- Any other number within the range of floating point. -/
  | float (x : Binary64)
  deriving DecidableEq, Repr

/-- A JSON document. -/
inductive Json where
  | null
  | bool (b : Bool)
  | number (n : Json.Number)
  | string (s : String)
  | array (items : List Json)
  | object (fields : List (String × Json))
  /-- Well-formed text without a value: a string with a lone surrogate, a number beyond all floating
  point numbers, an object with such a string for a key, or a container nested too deep. -/
  | unreadable
  deriving Repr, Inhabited

namespace Json

/-- Arrays and objects nested deeper than this are unreadable. -/
def maxDepth : Nat := 127

mutual

/-- No part of the document is unreadable. -/
def readable : Json → Bool
  | .array items => readableItems items
  | .object fields => readableFields fields
  | .unreadable => false
  | _ => true

/-- Every item is readable. -/
def readableItems : List Json → Bool
  | [] => true
  | j :: rest => readable j && readableItems rest

/-- Every field is readable. -/
def readableFields : List (String × Json) → Bool
  | [] => true
  | (_, j) :: rest => readable j && readableFields rest

end

/-- The text of a string document. -/
def string? : Json → Option String
  | .string s => some s
  | _ => none

/-- The truth value of a Boolean document. -/
def bool? : Json → Option Bool
  | .bool b => some b
  | _ => none

/-- The items of an array. -/
def array? : Json → Option (List Json)
  | .array items => some items
  | _ => none

/-- The fields of an object, repetitions included. -/
def object? : Json → Option (List (String × Json))
  | .object fields => some fields
  | _ => none

/-- One more than the largest count that fits into 64 bits. -/
def countBound : Nat := UInt64.size

/-- A count: a whole number from zero below `2 ^ 64`. -/
def count? : Json → Option Nat
  | .number (.integer i) => if 0 ≤ i ∧ i < countBound then some i.toNat else none
  | _ => none

/-- What may be left out by writing `null`. -/
def nullable? {α : Type} (read : Json → Option α) : Json → Option (Option α)
  | .null => some none
  | j => (read j).map some

/-- A name from a fixed list: a string, or an object with the name for its only key over `null`. -/
def name? : Json → Option String
  | .string s => some s
  | .object [(s, .null)] => some s
  | _ => none

end Json

end BranchingStory
