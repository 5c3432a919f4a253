import BranchingStory.Story.Basic

/-!
# Story lines

The story line through a block goes down from it along the selected children to a leaf and up from
it along the parents to the root. A tree of `n` blocks has no longer line than `n`, so after that
many blocks the way down stops and the way up is refused.
-/

namespace BranchingStory.Story

variable {Memory : Type}

/-- The leaf below a block along the selected children, after at most so many steps. -/
def leafBelow (s : Story Memory) : Nat → BlockId → Except StoryError BlockId
  | 0, id => .ok id
  | steps + 1, id =>
    match s.get id with
    | .error e => .error e
    | .ok b =>
      match b.selectedChild? with
      | some child => leafBelow s steps child
      | none => .ok id

/-- The blocks above one along the parents, in front of the list of those below. Only so many more
blocks are allowed on the line through `start`. -/
def lineAbove (s : Story Memory) (start : BlockId) :
    Nat → Option BlockId → List BlockId → Except StoryError (List BlockId)
  | _, none, line => .ok line
  | 0, some _, _ => .error (.snapshot (.lostRoot start))
  | more + 1, some id, line =>
    match s.get id with
    | .error e => .error e
    | .ok b => lineAbove s start more b.parent (id :: line)

/-- The story line through a block, from the root to a leaf. -/
def line (s : Story Memory) (id : BlockId) : Except StoryError (List BlockId) :=
  match s.leafBelow s.size id with
  | .error e => .error e
  | .ok leaf => s.lineAbove id s.size (some leaf) []

end BranchingStory.Story
