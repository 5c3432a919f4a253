import BranchingStory.Block.Basic

/-!
# How blocks advance

User operations act on the current world of an idle block and on the scratch world of a loading one,
which queues those that succeed. The generator's completion and the user's resolution end in a
commit: a batch is applied to the input world, and either all of it succeeds and the block becomes
idle on the result, or the block fails and its metadata lists what failed. A step that the phase
does not allow is `none`.
-/

namespace BranchingStory.Block

/-- The metadata entry of a failed operation. -/
def failureEntry (o : Outcome) : Value :=
  .map [("operation", .text o.operation.display),
    ("error", .text ((o.error.map OperationError.message).getD ""))]

/-- The block after a batch that settles it for good, with the outcomes. -/
def commit (b : Block) (content : String) (batch : List Operation) : Block × List Outcome :=
  let (world, outcomes) := b.input.apply batch
  if Outcome.allSucceeded outcomes then
    ({ b with content, phase := .idle (some world) world }, outcomes)
  else
    ({ b with
        content
        metadata := Entries.put MetadataKey.error.name
          (.list ((Outcome.failures outcomes).map failureEntry)) b.metadata
        phase := .failed .operationsFailed }, outcomes)

/-- The block after the user's operations, with the outcomes. -/
def submit? (b : Block) (ops : List Operation) : Option (Block × List Outcome) :=
  match b.phase with
  | .idle merged current =>
    let (world, outcomes) := current.apply ops
    some ({ b with phase := .idle merged world }, outcomes)
  | .loading scratch queue =>
    let (world, outcomes) := scratch.apply ops
    some ({ b with phase := .loading world (queue ++ Outcome.successful outcomes) }, outcomes)
  | _ => none

/-- What the generator delivers. -/
structure Delivery where
  /-- The generator succeeded. -/
  success : Bool
  /-- The text of the passage. -/
  content : String
  /-- The operations on the world. -/
  operations : List Operation
  /-- The variables that the generator puts out. -/
  output : Entries Value
  deriving Repr

/-- The block after the generator's completion, with the outcomes of a commit and the renamer's
memory. A delivery that blocks with the queue leaves the block to be resolved. -/
def complete? {Memory : Type} (renamer : Renamer Memory) (memory : Memory) (b : Block)
    (d : Delivery) : Option (Block × List Outcome × Memory) :=
  match b.phase with
  | .loading scratch queue =>
    if d.success then
      let b := { b with
        metadata := Entries.put MetadataKey.outputVariables.name (.map d.output) b.metadata }
      let (report, memory) := Merge.detect renamer b.input d.operations queue memory
      match report.conflict with
      | none =>
        let (b, outcomes) := b.commit d.content report.merged
        some (b, outcomes, memory)
      | some conflict =>
        some ({ b with
          content := d.content
          phase := .resolving scratch queue report.generated report.edited conflict }, [], memory)
    else some ({ b with phase := .failed .generatorFailed }, [], memory)
  | _ => none

/-- The block after the user's resolution, with the outcomes. -/
def resolve? (b : Block) (batch : List Operation) : Option (Block × List Outcome) :=
  match b.phase with
  | .resolving _ _ _ _ _ => some (b.commit b.content batch)
  | _ => none

/-- The block with another text, if one is given, and changed metadata: a value replaces what the
key had, and no value removes the key. -/
def withDetails (b : Block) (content : Option String) (metadata : Entries (Option Value)) : Block :=
  { b with
    content := content.getD b.content
    metadata := metadata.foldl (fun m e =>
      match e.2 with
      | some v => Entries.put e.1 v m
      | none => Entries.remove e.1 m) b.metadata }

/-- The block with changed settings. -/
def withSettings (b : Block) (settings : Entries Value) : Block :=
  { b with gameState := b.gameState.apply settings }

end BranchingStory.Block
