import BranchingStory.Entity

/-!
# Operators one after the other

The modifications of one attribute are operators with operands, and each works on the value that the
one before it left. An entity whose attribute is modified time and again shows the value that the
operators make of it, and fails where they do.
-/

namespace BranchingStory

namespace Operator

variable {key : String} {current : Option Value} {changes : List (Operator × Value)}

/-- The value of an attribute after operators with operands, one after the other up to the first
that fails. -/
def applyAll (key : String) (current : Option Value) :
    List (Operator × Value) → Except AttributeError (Option Value)
  | [] => .ok current
  | (op, operand) :: rest =>
    match op.apply key current operand with
    | .ok next => applyAll key (next.or current) rest
    | .error error => .error error

/-- An operator that gives an attribute a value is followed by the others on this value. -/
theorem applyAll_cons {op : Operator} {operand v : Value}
    (h : op.apply key current operand = .ok (some v)) (rest : List (Operator × Value)) :
    applyAll key current ((op, operand) :: rest) = applyAll key (some v) rest := by
  rw [applyAll, h]
  rfl

/-- A change that leaves its own result as it is can be repeated to no effect. -/
theorem applyAll_replicate {op : Operator} {operand v : Value}
    (h : op.apply key current operand = .ok (some v))
    (hagain : op.apply key (some v) operand = .ok (some v)) (n : Nat) :
    applyAll key current (List.replicate (n + 1) (op, operand)) = .ok (some v) := by
  rw [List.replicate_succ, applyAll_cons h]
  induction n with
  | zero => rfl
  | succ n ih => rw [List.replicate_succ, applyAll_cons hagain, ih]

end Operator

namespace Entity

/-- Modify one attribute by operators with operands, one after the other up to the first that
fails. -/
def modifyAll (e : Entity) (key : String) : List (Operator × Value) → Except AttributeError Entity
  | [] => .ok e
  | (op, operand) :: rest =>
    match e.modifyAttribute key op operand with
    | .ok next => next.modifyAll key rest
    | .error error => .error error

/-- A modification of an attribute other than a core one shows in its value what the operator makes
of the value before. -/
theorem map_attribute?_modifyAttribute {key : String} (hcore : CoreAttribute.ofKey? key = none)
    (e : Entity) (op : Operator) (operand : Value) :
    (e.modifyAttribute key op operand).map (fun next => next.attribute? key) =
      (op.apply key (e.attribute? key) operand).map fun next => next.or (e.attribute? key) := by
  rw [modifyAttribute, hcore, Option.isSome_none, if_neg Bool.false_ne_true]
  cases op.apply key (e.attribute? key) operand with
  | error error => rfl
  | ok next =>
    cases next with
    | none => rfl
    | some v => exact congrArg Except.ok (Entries.value?_put_self key v e.attributes)

/-- An attribute other than a core one that is modified time and again has the value that the
operators make of it one after the other. -/
theorem map_attribute?_modifyAll {key : String} (hcore : CoreAttribute.ofKey? key = none)
    (e : Entity) (changes : List (Operator × Value)) :
    (e.modifyAll key changes).map (fun last => last.attribute? key) =
      Operator.applyAll key (e.attribute? key) changes := by
  induction changes generalizing e with
  | nil => rfl
  | cons change changes ih =>
    obtain ⟨op, operand⟩ := change
    have hfirst := map_attribute?_modifyAttribute hcore e op operand
    rw [modifyAll, Operator.applyAll]
    cases hm : e.modifyAttribute key op operand with
    | error error =>
      cases ha : op.apply key (e.attribute? key) operand <;> rw [hm, ha] at hfirst <;> cases hfirst
      rfl
    | ok next =>
      cases ha : op.apply key (e.attribute? key) operand with
      | error error =>
        rw [hm, ha] at hfirst
        cases hfirst
      | ok v =>
        rw [hm, ha] at hfirst
        have hvalue : next.attribute? key = v.or (e.attribute? key) := Except.ok.inj hfirst
        dsimp only
        rw [← hvalue]
        exact ih next

end Entity

end BranchingStory
