import BranchingStory.Operation.Outcome
import BranchingStory.World.Basic

/-!
# Applying operations

Operations act on a world one after the other. One that fails leaves the world as it was and the
batch goes on, so the outcome list has one entry for each operation.
-/

namespace BranchingStory.World

/-- The world after an operation, or why the operation fails. -/
def step (w : World) : Operation → Except OperationError World
  | .create target attributes =>
    if w.contains target then .error (.alreadyExists target)
    else
      match (Entity.new target).setAttributes attributes with
      | .ok e => .ok (w.store target e)
      | .error error => .error (.refused target error)
  | .modify target key op value =>
    match w.live? target with
    | none => .error (.notFound target)
    | some e =>
      if Text.isBlank key then .error (.missingKey target)
      else if value.isNull then .error (.missingValue target)
      else
        match e.modifyAttribute key op value with
        | .ok next => .ok (w.store target next)
        | .error error => .error (.refused target error)
  | .delete target =>
    match w.stored? target with
    | none => .ok w
    | some e => .ok (w.store target { e with destroyed := true })

/-- The world after an operation with the outcome; a failed operation changes nothing. -/
def applyOne (w : World) (op : Operation) : World × Outcome :=
  match w.step op with
  | .ok next => (next, ⟨op, none⟩)
  | .error error => (w, ⟨op, some error⟩)

/-- The world after a batch with the outcomes in the order of the operations. -/
def apply (w : World) : List Operation → World × List Outcome
  | [] => (w, [])
  | op :: rest =>
    let (next, outcome) := w.applyOne op
    let (last, outcomes) := next.apply rest
    (last, outcome :: outcomes)

@[simp] theorem apply_nil (w : World) : w.apply [] = (w, []) := rfl

/-- A batch is its first operation and then the rest. -/
theorem apply_cons (w : World) (op : Operation) (rest : List Operation) :
    w.apply (op :: rest) =
      (((w.applyOne op).1.apply rest).1,
        (w.applyOne op).2 :: ((w.applyOne op).1.apply rest).2) := rfl

/-- A batch in two parts is the parts one after the other. -/
theorem apply_append (w : World) (first second : List Operation) :
    w.apply (first ++ second) =
      (((w.apply first).1.apply second).1,
        (w.apply first).2 ++ ((w.apply first).1.apply second).2) := by
  induction first generalizing w with
  | nil => rfl
  | cons op first ih => simp [apply_cons, ih]

/-- The outcome of an operation is about that operation. -/
@[simp] theorem operation_applyOne (w : World) (op : Operation) :
    (w.applyOne op).2.operation = op := by
  unfold applyOne
  split <;> rfl

/-- There is one outcome for each operation, in order. -/
theorem map_operation_apply (w : World) (ops : List Operation) :
    (w.apply ops).2.map Outcome.operation = ops := by
  induction ops generalizing w with
  | nil => rfl
  | cons op rest ih => simp [apply_cons, ih]

end BranchingStory.World
