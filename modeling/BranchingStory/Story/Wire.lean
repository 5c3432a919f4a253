import BranchingStory.Story.Snapshot
import BranchingStory.World.Wire

/-!
# Stories in documents

A snapshot is written as its root id and its records, and a record with every field, absent ones as
null. Reading needs the id, the phase and the input world of a record; what else is left out is
empty.
-/

namespace BranchingStory

namespace Status

/-- The document of a phase. -/
def toJson (s : Status) : Json := .string s.name

/-- The phase that a document is. -/
def ofJson? (j : Json) : Option Status := j.name?.bind ofName?

end Status

/-- The document of a block id. -/
def BlockId.toJson (id : BlockId) : Json := .string id

/-- The document of a count. -/
def countToJson (n : Nat) : Json := .number (.integer n)

/-- The document of what may be absent. -/
def optionToJson {α : Type} (write : α → Json) : Option α → Json
  | some a => write a
  | none => .null

/-- The documents of all items of an array, read alike. -/
def listOf? {α : Type} (read : Json → Option α) (j : Json) : Option (List α) :=
  j.array?.bind fun items => items.mapM read

/-- The document of a block's place. -/
def BlockNode.toJson (n : BlockNode) : Json :=
  .object [("id", BlockId.toJson n.id), ("parent", optionToJson BlockId.toJson n.parent),
    ("children", .array (n.children.map BlockId.toJson)),
    ("selected_child", optionToJson countToJson n.selected), ("status", n.status.toJson)]

namespace BlockRecord

/-- The document of a record. -/
def toJson (r : BlockRecord) : Json :=
  .object [("id", BlockId.toJson r.id), ("parent", optionToJson BlockId.toJson r.parent),
    ("children", .array (r.children.map BlockId.toJson)),
    ("selected_child", optionToJson countToJson r.selected), ("status", r.status.toJson),
    ("content", .string r.content), ("metadata", .object (Value.entriesToJson r.metadata)),
    ("triggered_child_params", .object (Value.entriesToJson r.childParams)),
    ("game_state", r.gameState.toJson), ("ws_input", r.input.toJson),
    ("ws_post_ai", optionToJson World.toJson r.merged),
    ("ws_post_user", optionToJson World.toJson r.current)]

/-- The fields of a record in order. -/
def fieldNames : List String :=
  ["id", "parent", "children", "selected_child", "status", "content", "metadata",
    "triggered_child_params", "game_state", "ws_input", "ws_post_ai", "ws_post_user"]

/-- The record that a document is. -/
def ofJson? (j : Json) : Option BlockRecord :=
  match j.parts? false fieldNames with
  | some [some id, parent, children, selected, some status, content, metadata, childParams,
      gameState, some input, merged, current] => do
    let id ← id.string?
    let parent ← Json.withDefault? none (Json.nullable? Json.string?) parent
    let children ← Json.withDefault? [] (listOf? Json.string?) children
    let selected ← Json.withDefault? none (Json.nullable? Json.count?) selected
    let status ← Status.ofJson? status
    let content ← Json.withDefault? "" Json.string? content
    let metadata ← Json.withDefault? [] Value.entriesOf? metadata
    let childParams ← Json.withDefault? [] Value.entriesOf? childParams
    let gameState ← Json.withDefault? .empty GameState.ofJson? gameState
    let input ← World.ofJson? input
    let merged ← Json.withDefault? none (Json.nullable? World.ofJson?) merged
    let current ← Json.withDefault? none (Json.nullable? World.ofJson?) current
    pure { id, parent, children, selected, status, content, metadata, childParams, gameState,
           input, merged, current }
  | _ => none

end BlockRecord

namespace Snapshot

/-- The document of a snapshot. -/
def toJson (s : Snapshot) : Json :=
  .object [("root_id", BlockId.toJson s.rootId),
    ("blocks", .array (s.blocks.map BlockRecord.toJson))]

/-- The snapshot that a document is. -/
def ofJson? (j : Json) : Option Snapshot :=
  match j.parts? false ["root_id", "blocks"] with
  | some [some rootId, some blocks] => do
    let rootId ← rootId.string?
    let blocks ← listOf? BlockRecord.ofJson? blocks
    pure ⟨rootId, blocks⟩
  | _ => none

/-- The text of a snapshot. -/
def toText (s : Snapshot) : String := s.toJson.render

/-- The snapshot that a text is. -/
def ofText? (text : String) : Option Snapshot := (Json.parse? text).bind ofJson?

end Snapshot

end BranchingStory
