import BranchingStory.GameState
import BranchingStory.Merge.Detection

/-!
# Blocks

A block is one passage of a story. It starts from an input world and passes through phases: while
its text is being generated the user's operations go to a scratch world and are queued, then both
sides are merged on the input world, if necessary with the user's help, and the block is idle or has
failed for good. What a block holds in each phase is exactly what that phase needs.
-/

namespace BranchingStory

/-- The id of a block. -/
abbrev BlockId := String

/-- The phases of a block by name. -/
inductive Status where
  | idle
  | loading
  | resolvingConflict
  | error
  deriving DecidableEq, Repr

namespace Status

/-- All phases. -/
def all : List Status := [idle, loading, resolvingConflict, error]

/-- The name of a phase. -/
def name : Status → String
  | idle => "Idle"
  | loading => "Loading"
  | resolvingConflict => "ResolvingConflict"
  | error => "Error"

/-- The phase of the given name. -/
def ofName? (s : String) : Option Status := all.find? fun status => status.name == s

/-- Reading the name of a phase gives the phase. -/
theorem ofName?_name (s : Status) : ofName? s.name = some s := by cases s <;> decide

end Status

/-- Why a block failed. -/
inductive FailureCause where
  /-- The generator did not deliver. -/
  | generatorFailed
  /-- Some operation of the merged batch failed. -/
  | operationsFailed
  deriving DecidableEq, Repr

/-- What a block holds in each of its phases. -/
inductive Phase where
  /-- The block is complete: the world right after the merge, if known, and the current one. -/
  | idle (merged : Option World) (current : World)
  /-- The generator is at work: the world as the user sees it, and the queue that led there. -/
  | loading (scratch : World) (queue : List Operation)
  /-- The user has to resolve a conflict between the two lists of operations. -/
  | resolving (scratch : World) (queue generated edited : List Operation)
      (conflict : Merge.Conflict)
  /-- The block has no world any more. -/
  | failed (cause : FailureCause)
  deriving Repr

/-- The name of a phase. -/
def Phase.status : Phase → Status
  | idle _ _ => .idle
  | loading _ _ => .loading
  | resolving _ _ _ _ _ => .resolvingConflict
  | failed _ => .error

/-- A passage of a story. -/
structure Block where
  /-- The id of the block. -/
  id : BlockId
  /-- The block that this one continues. -/
  parent : Option BlockId
  /-- The blocks that continue this one, oldest first. -/
  children : List BlockId
  /-- The position of the child that the story follows. -/
  selected : Option Nat
  /-- The world that the block starts from. -/
  input : World
  /-- Settings outside the world. -/
  gameState : GameState
  /-- The text of the passage. -/
  content : String
  /-- Facts about the block by key. -/
  metadata : Entries Value
  /-- The parameters that the newest child was made with. -/
  childParams : Entries Value
  /-- What the block holds in its phase. -/
  phase : Phase
  deriving Repr

namespace Block

/-- The metadata keys that blocks write themselves. -/
inductive MetadataKey where
  | creationTime
  | triggerParams
  | outputVariables
  | error
  deriving DecidableEq, Repr

/-- All metadata keys that blocks write themselves. -/
def MetadataKey.all : List MetadataKey := [creationTime, triggerParams, outputVariables, error]

/-- The name of a metadata key. -/
def MetadataKey.name : MetadataKey → String
  | creationTime => "CreationTime"
  | triggerParams => "TriggerParams"
  | outputVariables => "WorkflowOutputVariables"
  | error => "Error"

/-- The name of the block's phase. -/
def status (b : Block) : Status := b.phase.status

/-- The child that the story follows. -/
def selectedChild? (b : Block) : Option BlockId := b.selected.bind fun i => b.children[i]?

/-- The world as the user sees it. -/
def current? (b : Block) : Option World :=
  match b.phase with
  | .idle _ current => some current
  | .loading scratch _ => some scratch
  | .resolving scratch _ _ _ _ => some scratch
  | .failed _ => none

/-- The world right after the merge, of an idle block that knows it. -/
def merged? (b : Block) : Option World :=
  match b.phase with
  | .idle merged _ => merged
  | _ => none

/-- The current world of an idle block. -/
def settled? (b : Block) : Option World :=
  match b.phase with
  | .idle _ current => some current
  | _ => none

/-- The scratch world of a block that is not complete. -/
def scratch? (b : Block) : Option World :=
  match b.phase with
  | .loading scratch _ => some scratch
  | .resolving scratch _ _ _ _ => some scratch
  | _ => none

/-- The user's operations that wait to be merged. -/
def queue (b : Block) : List Operation :=
  match b.phase with
  | .loading _ queue => queue
  | .resolving _ queue _ _ _ => queue
  | _ => []

/-- The first block of a story: idle, without a parent, on an empty world. -/
def root (id : BlockId) : Block where
  id
  parent := none
  children := []
  selected := none
  input := .empty
  gameState := .empty
  content := ""
  metadata := []
  childParams := []
  phase := .idle (some .empty) .empty

/-- A new block under an idle one: it starts from the parent's current world and settings and waits
for the generator. -/
def child (parent : Block) (current : World) (id : BlockId) (time : String)
    (params : Entries Value) : Block where
  id
  parent := some parent.id
  children := []
  selected := none
  input := current
  gameState := parent.gameState
  content := ""
  metadata := [(MetadataKey.creationTime.name, .text time),
    (MetadataKey.triggerParams.name, .map params)]
  childParams := []
  phase := .loading current []

/-- The block with a new child, which becomes the one that the story follows. -/
def attach (b : Block) (id : BlockId) (params : Entries Value) : Block :=
  { b with
    children := b.children ++ [id]
    selected := some b.children.length
    childParams := params }

/-- The block following another child; none if it has no child at the position. -/
def select? (b : Block) (index : Nat) : Option Block :=
  if index < b.children.length then some { b with selected := some index } else none

end Block

end BranchingStory
