import BranchingStory.Merge.FreshId
import BranchingStory.Merge.Interaction
import BranchingStory.Merge.TargetIndex
import BranchingStory.World.Apply

/-!
# Conflicts between the generator and the user

The generator's batch and the user's queued operations are to be merged, the generator's first. A
user creation of an entity that the generator creates as well gets a fresh id, and every user
operation on the old id follows it. What then still blocks, modifications of one key of one entity
on both sides, is reported with the operations involved on each side, each once and in the order of
its batch.
-/

namespace BranchingStory.Merge

/-- The operations on both sides that only the user can reconcile. -/
structure Conflict where
  /-- Of the generator, in the order of its batch. -/
  generated : List Operation
  /-- Of the user, in the order of the queue. -/
  edited : List Operation
  deriving Repr

/-- What comes of two batches. -/
structure Report where
  /-- The generator's operations. -/
  generated : List Operation
  /-- The user's operations with the new ids. -/
  edited : List Operation
  /-- The targets that got a new id, in the order of the user's operations. -/
  renamed : List (EntityId × String)
  /-- What blocks, if anything does. -/
  conflict : Option Conflict
  deriving Repr

/-- The merged batch: the generator's operations first. -/
def Report.merged (r : Report) : List Operation := r.generated ++ r.edited

/-- The new id of a target. -/
def newId? (renamed : List (EntityId × String)) (target : EntityId) : Option String :=
  (renamed.find? fun r => r.1 == target).map Prod.snd

/-- A user operation on a renamed target follows it. -/
def follow (renamed : List (EntityId × String)) (op : Operation) : Operation :=
  match newId? renamed op.target with
  | some id => op.retarget id
  | none => op

/-- The generator creates the entity that the user operation creates. -/
def collides (index : TargetIndex) (op : Operation) : Bool :=
  (index.on op.target).any fun g => Interaction.of g op == .createCollision

/-- The names that no new id may take: all targets of both batches and all live entities. -/
def takenNames (world : World) (generated edited : List Operation) : List EntityId :=
  (generated ++ edited).map Operation.target ++ world.liveEntities.map Entity.name

/-- The renaming so far: the names taken, the renamed targets and the renamer's memory. -/
structure Renaming (Memory : Type) where
  /-- The names that no new id may take. -/
  taken : List EntityId
  /-- The renamed targets with their new ids, in order. -/
  renamed : List (EntityId × String)
  /-- The memory of the renamer. -/
  memory : Memory

/-- One user operation extends the renaming if it is the first colliding creation of its target. -/
def Renaming.extend {Memory : Type} (renamer : Renamer Memory) (index : TargetIndex)
    (r : Renaming Memory) (op : Operation) : Renaming Memory :=
  if (newId? r.renamed op.target).isSome || !collides index op then r
  else
    let (id, memory) := freshId renamer r.taken op.target r.memory
    { taken := r.taken ++ [{ op.target with id }]
      renamed := r.renamed ++ [(op.target, id)]
      memory }

/-- The renaming that a user's batch needs. -/
def renameCollisions {Memory : Type} (renamer : Renamer Memory) (world : World)
    (index : TargetIndex) (generated edited : List Operation) (memory : Memory) :
    Renaming Memory :=
  edited.foldl (Renaming.extend renamer index)
    { taken := takenNames world generated edited, renamed := [], memory }

/-- Append an operation unless the same one is there. -/
def addOnce (found : List Operation) (op : Operation) : List Operation :=
  if found.contains op then found else found ++ [op]

/-- A user operation and one of the generator's on the same target are both involved if they
block. -/
def Conflict.meet (e : Operation) (found : Conflict) (g : Operation) : Conflict :=
  if (Interaction.of g e).isBlocking then
    { generated := addOnce found.generated g, edited := addOnce found.edited e }
  else found

/-- A user operation meets the generator's operations on its target, in their order. -/
def Conflict.scan (index : TargetIndex) (found : Conflict) (e : Operation) : Conflict :=
  (index.on e.target).foldl (Conflict.meet e) found

/-- The place of the first operation that is the same; none comes before all places. -/
def firstPlace (batch : List Operation) (op : Operation) : Nat :=
  match batch.findIdx? fun g => g == op with
  | some i => i + 1
  | none => 0

/-- What blocks between the two batches. The generator's operations are found in the order of the
user's and then put in the order of their batch. -/
def conflict? (index : TargetIndex) (generated edited : List Operation) : Option Conflict :=
  let found := edited.foldl (Conflict.scan index) ⟨[], []⟩
  if found.edited.isEmpty then none
  else
    some { found with
      generated := found.generated.mergeSort fun a b =>
        decide (firstPlace generated a ≤ firstPlace generated b) }

/-- What comes of the two batches that are to be merged in a world, and the renamer's memory after
it. -/
def detect {Memory : Type} (renamer : Renamer Memory) (world : World)
    (generated edited : List Operation) (memory : Memory) : Report × Memory :=
  let index := TargetIndex.ofBatch generated
  let r := renameCollisions renamer world index generated edited memory
  let followed := edited.map (follow r.renamed)
  ({ generated
     edited := followed
     renamed := r.renamed
     conflict := conflict? index generated followed },
    r.memory)

/-- The generator's operations are left as they are. -/
theorem generated_detect {Memory : Type} (renamer : Renamer Memory) (world : World)
    (generated edited : List Operation) (memory : Memory) :
    (detect renamer world generated edited memory).1.generated = generated := rfl

/-- The user's operations follow the renamed targets. -/
theorem edited_detect {Memory : Type} (renamer : Renamer Memory) (world : World)
    (generated edited : List Operation) (memory : Memory) :
    (detect renamer world generated edited memory).1.edited =
      edited.map (follow (detect renamer world generated edited memory).1.renamed) := rfl

/-- There is one followed operation for each of the user's. -/
theorem length_edited_detect {Memory : Type} (renamer : Renamer Memory) (world : World)
    (generated edited : List Operation) (memory : Memory) :
    (detect renamer world generated edited memory).1.edited.length = edited.length := by
  simp [detect]

end BranchingStory.Merge
