import BranchingStory.Proofs.InPlace
import BranchingStory.Proofs.Story.History

/-!
# Calls that write in place

The registry of a running story is not a value that a refused call drops: it is read and written one
block at a time, and what is written stays written when the call is refused after that. Each call is
given here in this form, with its reads, checks and writes in their order. It comes out as the call
on the story as a value does, so no check comes after a write that it should have prevented.
-/

namespace BranchingStory

open InPlace

variable {Memory : Type}

/-- A computation on a story that is read and written in place, also if it fails. -/
abbrev Access (Memory : Type) := InPlace (Story Memory) StoryError

namespace Access

/-- A copy of a registered block. -/
def block (id : BlockId) : Access Memory Block := do
  match (← get).get id with
  | .ok b => pure b
  | .error e => throw e

/-- Write a block in its place. -/
def store (b : Block) : Access Memory Unit := modify fun s => s.put b

/-- Register a new block unless its id is taken. -/
def register (b : Block) : Access Memory Unit := do
  if (← get).blocks.has b.id then throw (.duplicateBlock b.id)
  store b

/-- Complete a copy of a block; what the renamer proposes for it is remembered at once. -/
def completed (b : Block) (d : Block.Delivery) : Access Memory (Option (Block × List Outcome)) := do
  let s ← get
  match b.complete? s.renamer s.memory d with
  | some (next, outcomes, memory) =>
    set { s with memory }
    pure (some (next, outcomes))
  | none => pure none

/-- Write what a copy of a block moves to, if it moves. -/
def transition (id : BlockId) (move : Block → Access Memory (Option (Block × List Outcome))) :
    Access Memory Answer := do
  let b ← block id
  match ← move b with
  | some (next, outcomes) =>
    store next
    pure (.advance (.moved ⟨id, b.status, next.status, outcomes⟩))
  | none => pure (.advance (.notApplicable b.status))

/-- A call that reads and writes a story in place. A new block is registered under the lock of its
id while the lock of its parent is held, so a new id that is the parent's own would wait for ever.
Every other id that is taken is refused. -/
def call : Call → Access Memory Answer
  | .createChild parent id time params => do
    let parentId := parent.getD (← get).rootId
    let b ← block parentId
    match b.phase with
    | .idle _ current =>
      let child := b.child current id time params
      register child
      store (b.attach id params)
      pure (.child child)
    | phase => throw (.invalidState parentId phase.status .createChild)
  | .submit id ops => do
    let b ← block id
    match b.submit? ops with
    | some (next, outcomes) =>
      store next
      pure (.submission (.applied b.status outcomes))
    | none => pure (.submission (.notApplied b.status))
  | .complete id d => transition id fun b => completed b d
  | .resolve id batch => transition id fun b => pure (b.resolve? batch)
  | .updateDetails id content metadata => do
    let b ← block id
    if b.status ≠ .idle then throw (.invalidState id b.status .updateDetails)
    store (b.withDetails content metadata)
    pure .done
  | .updateGameState id settings => do
    let b ← block id
    store (b.withSettings settings)
    pure (.status b.status)
  | .selectChild id index => do
    let b ← block id
    match b.select? index with
    | some next =>
      store next
      pure .done
    | none => throw (.invalidChildIndex id index b.children.length)

variable (s : Story Memory)

@[simp] theorem on_store (b : Block) : on s (store b) = (.ok (), s.put b) := rfl

@[simp] theorem on_block (id : BlockId) : on s (block id) = (s.get id, s) := by
  simp only [block, on_bind, on_get]
  cases s.get id <;> rfl

@[simp] theorem on_register (b : Block) : on s (register b) =
    if s.blocks.has b.id then (.error (.duplicateBlock b.id), s) else (.ok (), s.put b) := by
  simp only [register, on_bind, on_get]
  split <;> simp

/-- A call that reads and writes in place is answered as the call on the story as a value, and leaves
what that call leads to; when it is refused it leaves the story as it was. -/
theorem on_call (c : Call) : on s (call c) = ((s.exchange c).result, s.after c) := by
  cases c with
  | createChild parent id time params =>
    simp only [call, on_bind, on_get, on_block, Story.exchange, Story.after, Story.perform,
      Story.createChild]
    cases s.get (parent.getD s.rootId) with
    | error e => rfl
    | ok b =>
      dsimp only
      cases b.phase with
      | idle merged current =>
        have hid : (b.child current id time params).id = id := rfl
        simp only [on_bind, on_register, hid]
        cases s.blocks.has id <;> rfl
      | _ => rfl
  | submit id ops =>
    simp only [call, on_bind, on_block, Story.exchange, Story.after, Story.perform, Story.submit]
    cases s.get id with
    | error e => rfl
    | ok b =>
      dsimp only
      cases b.submit? ops <;> rfl
  | complete id d =>
    simp only [call, transition, completed, on_bind, on_get, on_block, Story.exchange, Story.after,
      Story.perform, Story.complete]
    cases s.get id with
    | error e => rfl
    | ok b =>
      dsimp only
      cases b.complete? s.renamer s.memory d <;> rfl
  | resolve id batch =>
    simp only [call, transition, on_bind, on_pure, on_block, Story.exchange, Story.after,
      Story.perform, Story.resolve]
    cases s.get id with
    | error e => rfl
    | ok b =>
      dsimp only
      cases b.resolve? batch <;> rfl
  | updateDetails id content metadata =>
    simp only [call, on_bind, on_block, Story.exchange, Story.after, Story.perform,
      Story.updateDetails]
    cases s.get id with
    | error e => rfl
    | ok b =>
      by_cases hidle : b.status = .idle
      · simp only [hidle, ne_eq, not_true_eq_false, if_false, if_true]
        rfl
      · simp only [hidle, ne_eq, not_false_eq_true, if_false, if_true]
        rfl
  | updateGameState id settings =>
    simp only [call, on_bind, on_block, Story.exchange, Story.after, Story.perform,
      Story.updateGameState]
    cases s.get id <;> rfl
  | selectChild id index =>
    simp only [call, on_bind, on_block, Story.exchange, Story.after, Story.perform,
      Story.selectChild]
    cases s.get id with
    | error e => rfl
    | ok b =>
      dsimp only
      cases b.select? index <;> rfl

end Access

end BranchingStory
