import BranchingStory.Json.Printer
import BranchingStory.Json.Reader
import BranchingStory.Operation.Basic
import BranchingStory.Value.Wire

/-!
# Operations in documents

An operation is written as an object with the tag `op` first. It is read from an object with the tag
in any place, once, and other fields skipped, or from an array of the tag and the fields in order.
An operation is read as a whole, so no part of it may be unreadable, not even a skipped one; and
names from a fixed list may also stand as the only key over an empty object.
-/

namespace BranchingStory

namespace Operator

/-- The document of an operator. -/
def toJson (op : Operator) : Json := .string op.symbol

end Operator

namespace Operation

/-- The field that tells operations apart. -/
def tagKey : String := "op"

/-- The document of an operation. -/
def toJson : Operation → Json
  | create target attributes =>
    .object [(tagKey, .string "Create"), ("kind", target.kind.toJson), ("id", .string target.id),
      ("initial_attributes", .object (Value.entriesToJson attributes))]
  | modify target key op value =>
    .object [(tagKey, .string "Modify"), ("kind", target.kind.toJson), ("id", .string target.id),
      ("key", .string key), ("operator", op.toJson), ("value", value.toJson)]
  | delete target =>
    .object [(tagKey, .string "Delete"), ("kind", target.kind.toJson), ("id", .string target.id)]

/-- A name from a fixed list within an operation. -/
def fixedName? : Json → Option String
  | .object [(s, .object [])] => some s
  | j => j.name?

/-- The target that a kind and an id are. -/
def targetOf? (kind id : Json) : Option EntityId := do
  let kind ← (fixedName? kind).bind EntityKind.ofName?
  let id ← id.string?
  pure ⟨kind, id⟩

/-- The creation whose parts a document holds. -/
def createOf? (body : Json) : Option Operation :=
  match body.parts? false ["kind", "id", "initial_attributes"] with
  | some [some kind, some id, attributes] => do
    let target ← targetOf? kind id
    let attributes ← Json.withDefault? [] Value.entriesOf? attributes
    pure (create target attributes)
  | _ => none

/-- The modification whose parts a document holds. -/
def modifyOf? (body : Json) : Option Operation :=
  match body.parts? false ["kind", "id", "key", "operator", "value"] with
  | some [some kind, some id, some key, some op, value] => do
    let target ← targetOf? kind id
    let key ← key.string?
    let op ← (fixedName? op).bind Operator.ofSymbol?
    let value ← Json.withDefault? .null Value.ofJson? value
    pure (modify target key op value)
  | _ => none

/-- The deletion whose parts a document holds. -/
def deleteOf? (body : Json) : Option Operation :=
  match body.parts? false ["kind", "id"] with
  | some [some kind, some id] => (targetOf? kind id).map delete
  | _ => none

/-- The operation of the given tag whose parts a document holds. -/
def ofTagged? (tag : String) (body : Json) : Option Operation :=
  if tag = "Create" then createOf? body
  else if tag = "Modify" then modifyOf? body
  else if tag = "Delete" then deleteOf? body
  else none

/-- The operation that a document is. -/
def ofJson? (j : Json) : Option Operation :=
  if !j.readable then none
  else
    match j with
    | .object fields =>
      match Json.field? fields tagKey with
      | some (some (.string tag)) =>
        ofTagged? tag (.object (fields.filter fun f => f.1 != tagKey))
      | _ => none
    | .array (.string tag :: items) => ofTagged? tag (.array items)
    | _ => none

end Operation

end BranchingStory
