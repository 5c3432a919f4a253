import BranchingStory.Operation.Basic

/-!
# How two operations interact

An operation of the generator and one of the user interact only when they have the same target. Two
creations collide, which a new id for the user's entity resolves. Two modifications of the same key
collide and cannot be resolved without the user. Everything else goes together.
-/

namespace BranchingStory

/-- How an operation of the generator and one of the user interact. -/
inductive Interaction where
  /-- They have different targets. -/
  | disjoint
  /-- Both create the same entity. -/
  | createCollision
  /-- Both modify the same key of the same entity. -/
  | keyCollision
  /-- They have the same target and go together. -/
  | compatible
  deriving DecidableEq, Repr

namespace Interaction

/-- The name of an interaction. -/
def name : Interaction → String
  | disjoint => "Disjoint"
  | createCollision => "CreateCollision"
  | keyCollision => "KeyCollision"
  | compatible => "Compatible"

/-- Only the user can resolve the interaction. -/
def isBlocking : Interaction → Bool
  | keyCollision => true
  | _ => false

/-- The interaction of two operations. -/
def of (generated edited : Operation) : Interaction :=
  if generated.target ≠ edited.target then disjoint
  else
    match generated, edited with
    | .create _ _, .create _ _ => createCollision
    | .modify _ j _ _, .modify _ k _ _ => if j = k then keyCollision else compatible
    | _, _ => compatible

/-- Two operations block exactly when both modify the same key of the same entity. -/
theorem isBlocking_of_iff (generated edited : Operation) :
    (of generated edited).isBlocking = true ↔
      generated.target = edited.target ∧
        ∃ key, generated.modifyKey? = some key ∧ edited.modifyKey? = some key := by
  by_cases h : generated.target = edited.target
  · cases generated <;> cases edited <;>
      simp_all [of, isBlocking, Operation.target, Operation.modifyKey?]
    split <;> simp_all [eq_comm]
  · simp [of, h, isBlocking]

/-- Two operations collide as creations exactly when both create the same entity. -/
theorem of_eq_createCollision_iff (generated edited : Operation) :
    of generated edited = createCollision ↔
      generated.target = edited.target ∧ generated.isCreate = true ∧ edited.isCreate = true := by
  by_cases h : generated.target = edited.target
  · cases generated <;> cases edited <;>
      simp_all [of, Operation.target, Operation.isCreate]
    split <;> simp
  · simp [of, h]

end Interaction

end BranchingStory
