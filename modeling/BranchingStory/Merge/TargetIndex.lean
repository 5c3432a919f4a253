import BranchingStory.Operation.Basic

/-!
# Operations by target

The generator's operations are looked up by their target while the user's are gone through. An index
lists the targets in the order of their first operations, each with its operations in the order of
the batch. Looking up a target finds what picking its operations out of the batch would find.
-/

namespace BranchingStory.Merge

/-- Operations by target. -/
abbrev TargetIndex := List (EntityId × List Operation)

namespace TargetIndex

/-- The operations on a target; there are none for a target that is not listed. -/
def on (target : EntityId) : TargetIndex → List Operation
  | [] => []
  | (t, ops) :: rest => if t = target then ops else on target rest

/-- The index with one more operation, which comes last among those on its target. -/
def add : TargetIndex → Operation → TargetIndex
  | [], op => [(op.target, [op])]
  | (t, ops) :: rest, op =>
    if t = op.target then (t, ops ++ [op]) :: rest else (t, ops) :: add rest op

/-- The index of a batch. -/
def ofBatch (batch : List Operation) : TargetIndex := batch.foldl add []

/-- An operation is added under its own target only. -/
theorem on_add (index : TargetIndex) (op : Operation) (target : EntityId) :
    (index.add op).on target =
      if op.target = target then index.on target ++ [op] else index.on target := by
  induction index with
  | nil => by_cases h : op.target = target <;> simp [add, on, h]
  | cons entry index ih =>
    obtain ⟨t, ops⟩ := entry
    by_cases ht : t = op.target
    · subst ht
      by_cases h : op.target = target <;> simp [add, on, h]
    · by_cases h : t = target
      · subst h
        simp [add, on, ht, Ne.symm ht]
      · simp [add, on, ht, h, ih]

/-- The operations on a target are those of the batch with that target, in the order of the
batch. -/
theorem on_ofBatch (batch : List Operation) (target : EntityId) :
    (ofBatch batch).on target = batch.filter fun op => op.target = target := by
  have hfold : ∀ index : TargetIndex, (batch.foldl add index).on target =
      index.on target ++ batch.filter fun op => op.target = target := by
    induction batch with
    | nil => simp
    | cons op batch ih =>
      intro index
      rw [List.foldl_cons, ih, on_add]
      by_cases h : op.target = target <;> simp [h]
  simpa only [ofBatch, on, List.nil_append] using hfold []

end TargetIndex

end BranchingStory.Merge
