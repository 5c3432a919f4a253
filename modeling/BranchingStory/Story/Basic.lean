import BranchingStory.Block.Advance
import BranchingStory.Config.Basic
import BranchingStory.Story.Error

/-!
# Stories

A story is a tree of blocks, registered by their ids, that grows from a root. Each call looks at one
block and puts back at most that block, and a new child with it. A call that is refused gives an
error, and one that does not fit the phase of the block is answered with that phase; neither changes
the story.
-/

namespace BranchingStory

/-- A tree of blocks. -/
structure Story (Memory : Type) where
  /-- How ids are made. -/
  config : Config
  /-- The id of the first block. -/
  rootId : BlockId
  /-- The blocks by id. -/
  blocks : Table Block
  /-- The source of new ids for entities. -/
  renamer : Renamer Memory
  /-- What the renamer remembers. -/
  memory : Memory

/-- The answer to operations that the user submits. -/
inductive Submission where
  /-- The block was in this phase and took them. -/
  | applied (status : Status) (outcomes : List Outcome)
  /-- The phase does not take operations. -/
  | notApplied (status : Status)
  deriving Repr

/-- A block moved from one phase to another. -/
structure Transition where
  /-- The block. -/
  id : BlockId
  /-- The phase before. -/
  source : Status
  /-- The phase after. -/
  goal : Status
  /-- The outcomes of the batch that was committed, if any. -/
  outcomes : List Outcome
  deriving Repr

/-- The answer to a completion or a resolution. -/
inductive Advance where
  /-- The block moved. -/
  | moved (transition : Transition)
  /-- The phase does not allow it. -/
  | notApplicable (status : Status)
  deriving Repr

namespace Story

variable {Memory : Type}

/-- The story that consists of its root. -/
def new (config : Config) (renamer : Renamer Memory) (memory : Memory) : Story Memory where
  config
  rootId := config.rootId
  blocks := Table.empty.insert config.rootId (.root config.rootId)
  renamer
  memory

/-- The block of an id. -/
def get (s : Story Memory) (id : BlockId) : Except StoryError Block :=
  match s.blocks.get? id with
  | some b => .ok b
  | none => .error (.notFound id)

/-- The phase of a block. -/
def status (s : Story Memory) (id : BlockId) : Except StoryError Status :=
  (s.get id).map Block.status

/-- How many blocks there are. -/
def size (s : Story Memory) : Nat := s.blocks.size

/-- The story with a block put in its place. -/
def put (s : Story Memory) (b : Block) : Story Memory :=
  { s with blocks := s.blocks.insert b.id b }

/-- The story with a new block of the given id under an idle one, the root unless said otherwise,
and the new block. The lock of the new id is taken while that of the parent is held, so a new id
that is the parent's own would wait for ever, where this answers that the id is taken. -/
def createChild (s : Story Memory) (parent : Option BlockId) (id : BlockId) (time : String)
    (params : Entries Value) : Except StoryError (Story Memory × Block) :=
  let parentId := parent.getD s.rootId
  match s.get parentId with
  | .error e => .error e
  | .ok b =>
    match b.phase with
    | .idle _ current =>
      if s.blocks.has id then .error (.duplicateBlock id)
      else
        let child := b.child current id time params
        .ok ((s.put child).put (b.attach id params), child)
    | phase => .error (.invalidState parentId phase.status .createChild)

/-- The story after operations of the user on a block. -/
def submit (s : Story Memory) (id : BlockId) (ops : List Operation) :
    Except StoryError (Story Memory × Submission) :=
  match s.get id with
  | .error e => .error e
  | .ok b =>
    match b.submit? ops with
    | some (next, outcomes) => .ok (s.put next, .applied b.status outcomes)
    | none => .ok (s, .notApplied b.status)

/-- The story after the generator's completion of a block. -/
def complete (s : Story Memory) (id : BlockId) (d : Block.Delivery) :
    Except StoryError (Story Memory × Advance) :=
  match s.get id with
  | .error e => .error e
  | .ok b =>
    match b.complete? s.renamer s.memory d with
    | some (next, outcomes, memory) =>
      .ok ({ s.put next with memory }, .moved ⟨id, b.status, next.status, outcomes⟩)
    | none => .ok (s, .notApplicable b.status)

/-- The story after the user's resolution of a conflict. -/
def resolve (s : Story Memory) (id : BlockId) (batch : List Operation) :
    Except StoryError (Story Memory × Advance) :=
  match s.get id with
  | .error e => .error e
  | .ok b =>
    match b.resolve? batch with
    | some (next, outcomes) =>
      .ok (s.put next, .moved ⟨id, b.status, next.status, outcomes⟩)
    | none => .ok (s, .notApplicable b.status)

/-- The story with another text and changed metadata of an idle block. -/
def updateDetails (s : Story Memory) (id : BlockId) (content : Option String)
    (metadata : Entries (Option Value)) : Except StoryError (Story Memory) :=
  match s.get id with
  | .error e => .error e
  | .ok b =>
    if b.status = .idle then .ok (s.put (b.withDetails content metadata))
    else .error (.invalidState id b.status .updateDetails)

/-- The story with changed settings of a block, and the phase of the block. -/
def updateGameState (s : Story Memory) (id : BlockId) (settings : Entries Value) :
    Except StoryError (Story Memory × Status) :=
  match s.get id with
  | .error e => .error e
  | .ok b => .ok (s.put (b.withSettings settings), b.status)

/-- The story following another child of a block. -/
def selectChild (s : Story Memory) (id : BlockId) (index : Nat) :
    Except StoryError (Story Memory) :=
  match s.get id with
  | .error e => .error e
  | .ok b =>
    match b.select? index with
    | some next => .ok (s.put next)
    | none => .error (.invalidChildIndex id index b.children.length)

end Story

end BranchingStory
