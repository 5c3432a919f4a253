import BranchingStory.Operation.Basic

/-!
# Outcomes of operations

Each operation of a batch has an outcome of its own: it succeeded, or it failed for a reason. A
batch is judged by the list of the outcomes, which keeps the order of the operations.
-/

namespace BranchingStory

/-- Why an operation failed. -/
inductive OperationError where
  /-- The entity to be created is live. -/
  | alreadyExists (target : EntityId)
  /-- The entity to be modified is not live. -/
  | notFound (target : EntityId)
  /-- The attribute key of a modification is blank. -/
  | missingKey (target : EntityId)
  /-- The value of a modification is null. -/
  | missingValue (target : EntityId)
  /-- An attribute refused its value. -/
  | refused (target : EntityId) (error : AttributeError)
  deriving DecidableEq, Repr

/-- What is said about a failed operation. -/
def OperationError.message : OperationError → String
  | alreadyExists target => target.display ++ " already exists"
  | notFound target => target.display ++ " not found"
  | missingKey target => "invalid modify on " ++ target.display ++ ": missing attribute key"
  | missingValue target => "invalid modify on " ++ target.display ++ ": missing value"
  | refused target error => target.display ++ ": " ++ error.message

/-- An operation with the error that it ended in, if any. -/
structure Outcome where
  /-- The operation. -/
  operation : Operation
  /-- Why it failed; absent if it succeeded. -/
  error : Option OperationError
  deriving Repr

namespace Outcome

/-- The operation succeeded. -/
def isSuccess (o : Outcome) : Bool := o.error.isNone

/-- Every operation succeeded. -/
def allSucceeded (outcomes : List Outcome) : Bool := outcomes.all isSuccess

/-- The outcomes of the failed operations. -/
def failures (outcomes : List Outcome) : List Outcome := outcomes.filter fun o => !o.isSuccess

/-- The operations that succeeded. -/
def successful (outcomes : List Outcome) : List Operation :=
  (outcomes.filter isSuccess).map operation

/-- Append a target unless it is there. -/
def addTarget (seen : List EntityId) (target : EntityId) : List EntityId :=
  if target ∈ seen then seen else seen ++ [target]

/-- The targets of the successful operations, each once, in the order of their first success. -/
def touched (outcomes : List Outcome) : List EntityId :=
  (successful outcomes).foldl (fun seen op => addTarget seen op.target) []

end Outcome

end BranchingStory
