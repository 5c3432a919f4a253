import BranchingStory.Binary64.Basic
import BranchingStory.EntityId
import BranchingStory.Entries

/-!
# Values

The values of attributes, settings and metadata. Two values are the same when they hold the same
thing: whole numbers and floating point numbers are never the same, the order of a map's entries
does not count, and NaN is not the same as itself.
-/

namespace BranchingStory

/-- A dynamically typed value. The entries of a map have distinct names. -/
inductive Value where
  | null
  | bool (b : Bool)
  | int (i : Int64)
  | float (x : Binary64)
  | text (s : String)
  | list (items : List Value)
  /-- A reference to an entity. -/
  | ref (target : EntityId)
  | map (entries : List (String × Value))
  deriving Repr, Inhabited

/-- The type of a value. -/
inductive ValueType where
  | null
  | bool
  | int
  | float
  | text
  | list
  | ref
  | map
  deriving DecidableEq, Repr

/-- The name of a type. -/
def ValueType.name : ValueType → String
  | null => "null"
  | bool => "bool"
  | int => "int"
  | float => "float"
  | text => "text"
  | list => "list"
  | ref => "ref"
  | map => "map"

namespace Value

/-- The type of a value. -/
def type : Value → ValueType
  | null => .null
  | bool _ => .bool
  | int _ => .int
  | float _ => .float
  | text _ => .text
  | list _ => .list
  | ref _ => .ref
  | map _ => .map

/-- The value is null. -/
def isNull : Value → Bool
  | null => true
  | _ => false

/-- The truth value, of a Boolean only. -/
def bool? : Value → Option Bool
  | bool b => some b
  | _ => none

/-- The whole number, of an integer only. -/
def int? : Value → Option Int64
  | int i => some i
  | _ => none

/-- The floating point number, of one only. -/
def float? : Value → Option Binary64
  | float x => some x
  | _ => none

/-- The text, of a text only. -/
def text? : Value → Option String
  | text s => some s
  | _ => none

/-- The items, of a list only. -/
def list? : Value → Option (List Value)
  | list items => some items
  | _ => none

/-- The entries, of a map only. -/
def map? : Value → Option (Entries Value)
  | map entries => some entries
  | _ => none

mutual

/-- The two values are the same. -/
def same : Value → Value → Bool
  | null, null => true
  | bool a, bool b => a == b
  | int a, int b => a == b
  | float a, float b => a.equals b
  | text a, text b => a == b
  | list a, list b => sameItems a b
  | ref a, ref b => a == b
  | map a, map b => a.length == b.length && sameEntries a b
  | _, _ => false

/-- The two lists have the same items at the same places. -/
def sameItems : List Value → List Value → Bool
  | [], [] => true
  | a :: as, b :: bs => same a b && sameItems as bs
  | _, _ => false

/-- Every entry of the first list has the same value in the second. -/
def sameEntries : List (String × Value) → List (String × Value) → Bool
  | [], _ => true
  | (key, a) :: as, bs =>
    (match Entries.value? key bs with
      | some b => same a b
      | none => false) && sameEntries as bs

end

instance : BEq Value := ⟨same⟩

/-- The two entry lists hold the same values by name. -/
def sameMap (a b : Entries Value) : Bool := a.length == b.length && sameEntries a b

mutual

/-- The names within each map of the value are distinct. -/
def WellFormed : Value → Prop
  | list items => WellFormedItems items
  | map entries => Entries.Distinct entries ∧ WellFormedEntries entries
  | _ => True

/-- Every item is well formed. -/
def WellFormedItems : List Value → Prop
  | [] => True
  | v :: rest => WellFormed v ∧ WellFormedItems rest

/-- Every value by name is well formed. -/
def WellFormedEntries : List (String × Value) → Prop
  | [] => True
  | (_, v) :: rest => WellFormed v ∧ WellFormedEntries rest

end

end Value

end BranchingStory
