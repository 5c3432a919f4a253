import BranchingStory.Block.Basic

/-!
# What a story refuses

A call on a story is refused for one of a few causes, each with its own wording. The faults of a
snapshot that is not a tree are told apart as well.
-/

namespace BranchingStory

/-- What a block would have to be idle for. -/
inductive IdleAction where
  | createChild
  | updateDetails
  deriving DecidableEq, Repr

/-- How an action is named. -/
def IdleAction.name : IdleAction → String
  | createChild => "create child"
  | updateDetails => "update details"

/-- Why a snapshot is not the tree of a story. -/
inductive SnapshotFault where
  /-- Two records have the same id. -/
  | duplicate (id : BlockId)
  /-- The root has no record. -/
  | rootMissing (id : BlockId)
  /-- The root has a parent. -/
  | rootHasParent (id : BlockId)
  /-- A block other than the root has no parent with a record. -/
  | noParent (id : BlockId)
  /-- The parent of a block does not list it. -/
  | notListed (id parent : BlockId)
  /-- A listed child has no record or another parent. -/
  | strayChild (child id : BlockId)
  /-- The selected position is not that of a child. -/
  | selectionOutOfRange (id : BlockId) (index count : Nat)
  /-- There are children and none is selected. -/
  | noneSelected (id : BlockId)
  /-- The walk from the root does not meet every record once. -/
  | unreachable
  /-- The parents of a block do not lead to the root. -/
  | lostRoot (id : BlockId)
  deriving DecidableEq, Repr

/-- What is said about a fault. -/
def SnapshotFault.message : SnapshotFault → String
  | duplicate id => "duplicate block '" ++ id ++ "'"
  | rootMissing id => "root '" ++ id ++ "' missing"
  | rootHasParent id => "root '" ++ id ++ "' has a parent"
  | noParent id => "block '" ++ id ++ "' has no valid parent"
  | notListed id parent => "block '" ++ id ++ "' is not listed by its parent '" ++ parent ++ "'"
  | strayChild child id => "child '" ++ child ++ "' of '" ++ id ++ "' missing or linked elsewhere"
  | selectionOutOfRange id index count =>
    "block '" ++ id ++ "' selects child " ++ toString index ++ " of " ++ toString count
  | noneSelected id => "block '" ++ id ++ "' has children but none selected"
  | unreachable => "blocks unreachable from the root"
  | lostRoot id => "parent links of '" ++ id ++ "' do not reach the root"

/-- Why a call on a story is refused. -/
inductive StoryError where
  /-- No block has the id. -/
  | notFound (id : BlockId)
  /-- The block would have to be idle. -/
  | invalidState (id : BlockId) (status : Status) (action : IdleAction)
  /-- The id of a new block is that of another one. -/
  | duplicateBlock (id : BlockId)
  /-- The block has no child at the position. -/
  | invalidChildIndex (id : BlockId) (index count : Nat)
  /-- The blocks do not form a tree. -/
  | snapshot (fault : SnapshotFault)
  deriving DecidableEq, Repr

namespace StoryError

/-- What is said about a refused call. -/
def message : StoryError → String
  | notFound id => "block '" ++ id ++ "' not found"
  | invalidState id status action =>
    "block '" ++ id ++ "' is " ++ status.name ++ "; cannot " ++ action.name
  | duplicateBlock id => "block '" ++ id ++ "' already exists"
  | invalidChildIndex id index count =>
    "block '" ++ id ++ "' has " ++ toString count ++ " children; index " ++ toString index ++
      " is out of range"
  | snapshot fault => "invalid snapshot: " ++ fault.message

/-- The block asked for does not exist. -/
def isNotFound : StoryError → Bool
  | notFound _ => true
  | _ => false

end StoryError

end BranchingStory
