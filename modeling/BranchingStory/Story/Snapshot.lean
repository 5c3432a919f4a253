import BranchingStory.Story.Basic

/-!
# Snapshots

A snapshot is the list of a story's blocks without what is in flight: scratch worlds, queues and
conflicts. A story is restored from a snapshot when its records form a tree, and then every block is
idle: on the current world recorded for it, else on the merged one, else on its input world.
-/

namespace BranchingStory

/-- What is recorded of a block. -/
structure BlockRecord where
  /-- The id of the block. -/
  id : BlockId
  /-- The block that it continues. -/
  parent : Option BlockId
  /-- The blocks that continue it. -/
  children : List BlockId
  /-- The position of the child that the story follows. -/
  selected : Option Nat
  /-- The phase that the block was in. -/
  status : Status
  /-- The text of the passage. -/
  content : String
  /-- Facts about the block. -/
  metadata : Entries Value
  /-- The parameters of the newest child. -/
  childParams : Entries Value
  /-- Settings outside the world. -/
  gameState : GameState
  /-- The world that the block starts from. -/
  input : World
  /-- The world right after the merge. -/
  merged : Option World
  /-- The current world. -/
  current : Option World
  deriving Repr

/-- The place of a block in the tree. -/
structure BlockNode where
  /-- The id of the block. -/
  id : BlockId
  /-- The block that it continues. -/
  parent : Option BlockId
  /-- The blocks that continue it. -/
  children : List BlockId
  /-- The position of the child that the story follows. -/
  selected : Option Nat
  /-- The phase of the block. -/
  status : Status
  deriving DecidableEq, Repr

/-- The recorded blocks of a story. -/
structure Snapshot where
  /-- The id of the first block. -/
  rootId : BlockId
  /-- The records. -/
  blocks : List BlockRecord
  deriving Repr

namespace Block

/-- What is recorded of a block. Only idle blocks have worlds beside their input that last. -/
def record (b : Block) : BlockRecord where
  id := b.id
  parent := b.parent
  children := b.children
  selected := b.selected
  status := b.status
  content := b.content
  metadata := b.metadata
  childParams := b.childParams
  gameState := b.gameState
  input := b.input
  merged := b.merged?
  current := b.settled?

/-- The place of a block in the tree. -/
def node (b : Block) : BlockNode := ⟨b.id, b.parent, b.children, b.selected, b.status⟩

end Block

/-- The idle block that a record is restored to. -/
def BlockRecord.toBlock (r : BlockRecord) : Block where
  id := r.id
  parent := r.parent
  children := r.children
  selected := r.selected
  input := r.input
  gameState := r.gameState
  content := r.content
  metadata := r.metadata
  childParams := r.childParams
  phase := .idle r.merged ((r.current.orElse fun _ => r.merged).getD r.input)

namespace Snapshot

/-- The record of an id. -/
def find? (records : List BlockRecord) (id : BlockId) : Option BlockRecord :=
  records.find? fun r => r.id == id

/-- The first id that repeats an earlier one. -/
def firstRepeated? (seen : List BlockId) : List BlockId → Option BlockId
  | [] => none
  | id :: rest => if id ∈ seen then some id else firstRepeated? (id :: seen) rest

/-- What is wrong with the way up from a record other than the root's. -/
def parentFault? (records : List BlockRecord) (r : BlockRecord) : Option SnapshotFault :=
  match r.parent.bind (find? records) with
  | none => some (.noParent r.id)
  | some parent => if r.id ∈ parent.children then none else some (.notListed r.id parent.id)

/-- The first child of a record that has no record or another parent. -/
def childFault? (records : List BlockRecord) (r : BlockRecord) : Option SnapshotFault :=
  (r.children.find? fun child =>
    match find? records child with
    | some c => c.parent != some r.id
    | none => true).map fun child => .strayChild child r.id

/-- What is wrong with the selection of a record. -/
def selectionFault? (r : BlockRecord) : Option SnapshotFault :=
  match r.selected with
  | some i =>
    if r.children.length ≤ i then some (.selectionOutOfRange r.id i r.children.length) else none
  | none => if r.children.isEmpty then none else some (.noneSelected r.id)

/-- The first thing that is wrong with the links of a record. -/
def recordFault? (rootId : BlockId) (records : List BlockRecord) (r : BlockRecord) :
    Option SnapshotFault :=
  (if r.id = rootId then none else parentFault? records r).orElse fun _ =>
    (childFault? records r).orElse fun _ => selectionFault? r

/-- How many blocks a walk along the children meets from a list of blocks to be visited, counted up
to a limit. -/
def visits (records : List BlockRecord) : Nat → List BlockId → Nat
  | 0, _ => 0
  | _ + 1, [] => 0
  | limit + 1, id :: rest =>
    1 + visits records limit (((find? records id).elim [] BlockRecord.children) ++ rest)

/-- What is wrong with the root. -/
def rootFault? (s : Snapshot) : Option SnapshotFault :=
  match find? s.blocks s.rootId with
  | none => some (.rootMissing s.rootId)
  | some root => if root.parent.isSome then some (.rootHasParent s.rootId) else none

/-- The first reason why the records are not the tree of a story. -/
def fault? (s : Snapshot) : Option SnapshotFault :=
  match firstRepeated? [] (s.blocks.map BlockRecord.id) with
  | some id => some (.duplicate id)
  | none =>
    (s.rootFault?).orElse fun _ =>
      (s.blocks.findSome? (recordFault? s.rootId s.blocks)).orElse fun _ =>
        if visits s.blocks (s.blocks.length + 1) [s.rootId] = s.blocks.length then none
        else some .unreachable

end Snapshot

namespace Story

variable {Memory : Type}

/-- The snapshot of a story, with the records in the order of their ids. -/
def snapshot (s : Story Memory) : Snapshot := ⟨s.rootId, s.blocks.values.map Block.record⟩

/-- The places of all blocks, the root's first and the others in the order of their ids. -/
def nodes (s : Story Memory) : List BlockNode :=
  let all := s.blocks.values.map Block.node
  (all.filter fun n => n.id == s.rootId) ++ all.filter fun n => n.id != s.rootId

/-- The story of a snapshot, with every block idle, if its records form a tree. -/
def restore (config : Config) (renamer : Renamer Memory) (memory : Memory) (snapshot : Snapshot) :
    Except StoryError (Story Memory) :=
  match snapshot.fault? with
  | some fault => .error (.snapshot fault)
  | none =>
    .ok
      { config
        rootId := snapshot.rootId
        blocks := Table.ofList (snapshot.blocks.map fun r => (r.id, r.toBlock))
        renamer
        memory }

end Story

end BranchingStory
