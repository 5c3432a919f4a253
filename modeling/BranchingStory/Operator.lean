import BranchingStory.Value.Basic

/-!
# Operators on attributes

An operator combines the current value of an attribute with an operand. Equality replaces. Addition
sums numbers of one type, joins texts, unites lists and merges maps; subtraction is its counterpart
on numbers, lists and maps. An attribute that is absent or null takes the operand under addition and
stays as it is under subtraction. Every other pairing of types is an error, and so is an integer sum
outside 64 bits.
-/

namespace BranchingStory

/-- The operators. -/
inductive Operator where
  | equal
  | add
  | subtract
  deriving DecidableEq, Repr

namespace Operator

/-- All operators. -/
def all : List Operator := [equal, add, subtract]

/-- The symbol of an operator. -/
def symbol : Operator → String
  | equal => "="
  | add => "+="
  | subtract => "-="

/-- The operator of the given symbol. -/
def ofSymbol? (s : String) : Option Operator := all.find? fun op => op.symbol == s

/-- Reading the symbol of an operator gives the operator. -/
theorem ofSymbol?_symbol (op : Operator) : ofSymbol? op.symbol = some op := by
  cases op <;> decide

end Operator

/-- What an attribute expects. -/
inductive Expected where
  /-- A truth value. -/
  | bool
  /-- A map. -/
  | map
  /-- A key that is text. -/
  | textKey
  deriving DecidableEq, Repr

/-- How an expectation is named. -/
def Expected.name : Expected → String
  | bool => "bool"
  | map => "map"
  | textKey => "text key"

/-- Why an attribute was not changed. -/
inductive AttributeError where
  /-- The attribute is fixed for good. -/
  | readOnly (key : String)
  /-- A core attribute can only be replaced. -/
  | coreOperator (key : String) (op : Operator)
  /-- The value has a type other than the one expected. -/
  | typeMismatch (key : String) (expected : Expected) (found : ValueType)
  /-- The operator does not pair the two types. -/
  | unsupported (key : String) (op : Operator) (current operand : ValueType)
  /-- The integer result does not fit into 64 bits. -/
  | overflow (key : String)
  /-- The symbol is that of no operator. -/
  | unknownOperator (symbol : String)
  deriving DecidableEq, Repr

/-- What is said about an attribute error. -/
def AttributeError.message : AttributeError → String
  | readOnly key => "attribute '" ++ key ++ "' is read-only"
  | coreOperator key op =>
    "core attribute '" ++ key ++ "' does not support operator '" ++ op.symbol ++ "'"
  | typeMismatch key expected found =>
    "attribute '" ++ key ++ "' expects " ++ expected.name ++ ", got " ++ found.name
  | unsupported key op current operand =>
    "operator '" ++ op.symbol ++ "' unsupported for " ++ current.name ++ " and " ++
      operand.name ++ " on '" ++ key ++ "'"
  | overflow key => "integer overflow on '" ++ key ++ "'"
  | unknownOperator symbol => "unknown operator: " ++ symbol

namespace Operator

/-- The operator that a text names. -/
def ofText (s : String) : Except AttributeError Operator :=
  match ofSymbol? s with
  | some op => .ok op
  | none => .error (.unknownOperator s)

/-- The integer as a value, if 64 bits hold it. -/
def intResult (key : String) (i : Int) : Except AttributeError Value :=
  if i.toInt64.toInt = i then .ok (.int i.toInt64) else .error (.overflow key)

/-- The items that an operand of a list operator brings: those of a list, else the operand alone. -/
def operandItems : Value → List Value
  | .list items => items
  | v => [v]

/-- Append an item unless the same one is there. -/
def addItem (items : List Value) (item : Value) : List Value :=
  if items.contains item then items else items ++ [item]

/-- The list with the new items of another at its end. -/
def unite (items more : List Value) : List Value := more.foldl addItem items

/-- The items of a list that are not in another. -/
def without (items removed : List Value) : List Value :=
  items.filter fun item => !removed.contains item

/-- The texts of a list of keys, or the first item that is none. -/
def keyTexts : List Value → Except ValueType (List String)
  | [] => .ok []
  | .text s :: rest =>
    match keyTexts rest with
    | .ok names => .ok (s :: names)
    | .error found => .error found
  | v :: _ => .error v.type

/-- The sum of a value and an operand. -/
def sum (key : String) (current operand : Value) : Except AttributeError Value :=
  match current, operand with
  | .int a, .int b => intResult key (a.toInt + b.toInt)
  | .float a, .float b => .ok (.float (a.add b))
  | .text a, .text b => .ok (.text (a ++ b))
  | .list items, v => .ok (.list (unite items (operandItems v)))
  | .map m, .map more => .ok (.map (Entries.putAll m more))
  | .map _, v => .error (.typeMismatch key .map v.type)
  | v, w => .error (.unsupported key .add v.type w.type)

/-- The difference of a value and an operand. -/
def difference (key : String) (current operand : Value) : Except AttributeError Value :=
  match current, operand with
  | .int a, .int b => intResult key (a.toInt - b.toInt)
  | .float a, .float b => .ok (.float (a.sub b))
  | .list items, v => .ok (.list (without items (operandItems v)))
  | .map m, .text name => .ok (.map (Entries.remove name m))
  | .map m, .list keys =>
    match keyTexts keys with
    | .ok names => .ok (.map (Entries.removeAll names m))
    | .error found => .error (.typeMismatch key .textKey found)
  | v, w => .error (.unsupported key .subtract v.type w.type)

/-- An absent attribute and one that is null count as the same. -/
def present? : Option Value → Option Value
  | some v => if v.isNull then none else some v
  | none => none

/-- The next value of an attribute with the given key and current value; `none` leaves the attribute
as it is. -/
def apply (op : Operator) (key : String) (current : Option Value) (operand : Value) :
    Except AttributeError (Option Value) :=
  match op, present? current with
  | equal, _ => .ok (some operand)
  | add, none => .ok (some operand)
  | add, some v =>
    match sum key v operand with
    | .ok next => .ok (some next)
    | .error e => .error e
  | subtract, none => .ok none
  | subtract, some v =>
    match difference key v operand with
    | .ok next => .ok (some next)
    | .error e => .error e

end Operator

end BranchingStory
