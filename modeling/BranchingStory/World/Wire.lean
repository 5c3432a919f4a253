import BranchingStory.Json.Printer
import BranchingStory.Json.Reader
import BranchingStory.Value.Wire
import BranchingStory.World.Basic

/-!
# Worlds in documents

A world is written as one object for each kind, with the stored entities by id in the order of the
ids. Reading does not compare the id that an entity is stored under with the entity's own name. An
id given twice has the entity given last.
-/

namespace BranchingStory

namespace Entity

/-- The document of an entity. -/
def toJson (e : Entity) : Json :=
  .object [("kind", e.name.kind.toJson), ("id", .string e.name.id),
    ("attributes", .object (Value.entriesToJson e.attributes)), ("destroyed", .bool e.destroyed)]

/-- The entity that a document is. -/
def ofJson? (j : Json) : Option Entity :=
  match j.parts? false ["kind", "id", "attributes", "destroyed"] with
  | some [some kind, some id, attributes, destroyed] => do
    let kind ← EntityKind.ofJson? kind
    let id ← id.string?
    let attributes ← Json.withDefault? [] Value.entriesOf? attributes
    let destroyed ← Json.withDefault? false Json.bool? destroyed
    pure ⟨⟨kind, id⟩, attributes, destroyed⟩
  | _ => none

end Entity

namespace World

/-- The document of a table of entities. -/
def tableToJson (t : Table Entity) : Json := .object (t.entries.map fun e => (e.1, e.2.toJson))

/-- The document of a world. -/
def toJson (w : World) : Json :=
  .object [("items", tableToJson w.items), ("characters", tableToJson w.characters),
    ("places", tableToJson w.places)]

/-- The entities by id that an object's fields are. -/
def entitiesOf? : List (String × Json) → Option (List (String × Entity))
  | [] => some []
  | (id, j) :: rest =>
    match Entity.ofJson? j, entitiesOf? rest with
    | some e, some pairs => some ((id, e) :: pairs)
    | _, _ => none

/-- The table of entities that a document is. -/
def tableOf? (j : Json) : Option (Table Entity) :=
  (j.object?.bind entitiesOf?).map Table.ofList

/-- The world that a document is. -/
def ofJson? (j : Json) : Option World :=
  match j.parts? false ["items", "characters", "places"] with
  | some [items, characters, places] => do
    let items ← Json.withDefault? .empty tableOf? items
    let characters ← Json.withDefault? .empty tableOf? characters
    let places ← Json.withDefault? .empty tableOf? places
    pure ⟨items, characters, places⟩
  | _ => none

end World

end BranchingStory
