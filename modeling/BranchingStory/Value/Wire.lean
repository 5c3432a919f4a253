import BranchingStory.Json.Record
import BranchingStory.Value.Basic

/-!
# Values in documents

A value is written as the plain document it looks like, except that a reference is an object with
the single key `$ref`. Reading takes whole numbers within 64 signed bits as integers and all other
numbers as floating point, and an object with the single key `$ref` as a reference if what it holds
is the name of an entity; every other object is a map. Importing a plain document instead gives an
object with exactly the keys of an entity's name the meaning of a reference.
-/

namespace BranchingStory

/-- The document of a kind. -/
def EntityKind.toJson (k : EntityKind) : Json := .string k.name

/-- The kind that a document is. -/
def EntityKind.ofJson? (j : Json) : Option EntityKind := j.name?.bind ofName?

/-- The document of an entity's name. -/
def EntityId.toJson (e : EntityId) : Json :=
  .object [("kind", e.kind.toJson), ("id", .string e.id)]

/-- The entity's name that a document is. -/
def EntityId.ofJson? (j : Json) : Option EntityId :=
  match j.parts? true ["kind", "id"] with
  | some [some kind, some id] => do
    let kind ← EntityKind.ofJson? kind
    let id ← id.string?
    pure ⟨kind, id⟩
  | _ => none

namespace Value

/-- The key that marks a reference. -/
def refKey : String := "$ref"

/-- The document of a reference. -/
def refToJson (target : EntityId) : Json := .object [(refKey, target.toJson)]

/-- A number as a value. -/
def ofNumber : Json.Number → Value
  | .integer i =>
    if i.toInt64.toInt = i then .int i.toInt64 else .float (Binary64.ofInt i)
  | .float x => .float x

mutual

/-- The document of a value. Numbers that are not finite have none and become null. -/
def toJson : Value → Json
  | null => .null
  | bool b => .bool b
  | int i => .number (.integer i.toInt)
  | float x => if x.isFinite then .number (.float x) else .null
  | text s => .string s
  | list items => .array (itemsToJson items)
  | ref target => refToJson target
  | map entries => .object (entriesToJson entries)

/-- The documents of a list's items. -/
def itemsToJson : List Value → List Json
  | [] => []
  | v :: rest => v.toJson :: itemsToJson rest

/-- The fields of a map. -/
def entriesToJson : List (String × Value) → List (String × Json)
  | [] => []
  | (key, v) :: rest => (key, v.toJson) :: entriesToJson rest

end

/-- The reference that an object's fields are. -/
def refOf? : List (String × Json) → Option EntityId
  | [(key, j)] => if key = refKey then EntityId.ofJson? j else none
  | _ => none

mutual

/-- The value that a document is; none if a part of it is unreadable. -/
def ofJson? : Json → Option Value
  | .null => some .null
  | .bool b => some (.bool b)
  | .number n => some (ofNumber n)
  | .string s => some (.text s)
  | .array items => (ofItems? items).map .list
  | .object fields =>
    match refOf? fields with
    | some target => some (.ref target)
    | none => (ofFields? fields).map fun pairs => .map (Entries.ofList pairs)
  | .unreadable => none

/-- The values of an array's items. -/
def ofItems? : List Json → Option (List Value)
  | [] => some []
  | j :: rest =>
    match ofJson? j, ofItems? rest with
    | some v, some vs => some (v :: vs)
    | _, _ => none

/-- The values of an object's fields. -/
def ofFields? : List (String × Json) → Option (List (String × Value))
  | [] => some []
  | (key, j) :: rest =>
    match ofJson? j, ofFields? rest with
    | some v, some pairs => some ((key, v) :: pairs)
    | _, _ => none

end

mutual

/-- The value that a plain document stands for; none if a part of it is unreadable. -/
def ofPlain? : Json → Option Value
  | .null => some .null
  | .bool b => some (.bool b)
  | .number n => some (ofNumber n)
  | .string s => some (.text s)
  | .array items => (ofPlainItems? items).map .list
  | .object fields =>
    match EntityId.ofJson? (.object fields) with
    | some target => some (.ref target)
    | none => (ofPlainFields? fields).map fun pairs => .map (Entries.ofList pairs)
  | .unreadable => none

/-- The values of an array's items. -/
def ofPlainItems? : List Json → Option (List Value)
  | [] => some []
  | j :: rest =>
    match ofPlain? j, ofPlainItems? rest with
    | some v, some vs => some (v :: vs)
    | _, _ => none

/-- The values of an object's fields. -/
def ofPlainFields? : List (String × Json) → Option (List (String × Value))
  | [] => some []
  | (key, j) :: rest =>
    match ofPlain? j, ofPlainFields? rest with
    | some v, some pairs => some ((key, v) :: pairs)
    | _, _ => none

end

/-- The entries that an object's fields are. -/
def entriesOf? (j : Json) : Option (Entries Value) :=
  (j.object?.bind ofFields?).map Entries.ofList

end Value

end BranchingStory
