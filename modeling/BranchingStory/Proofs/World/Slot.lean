import BranchingStory.World.Apply

/-!
# Batches seen under one name

An operation reads and changes only what the world stores under its target. So what a batch leaves
under one name, and the outcomes of the operations on that name, follow from what was stored there
and from those operations alone. Facts about worlds are proved one name at a time in this way.
-/

namespace BranchingStory

/-- What a world stores under one name. -/
abbrev Slot := Option Entity

namespace Slot

/-- The live entity of a slot. -/
def live? (slot : Slot) : Option Entity := slot.filter fun e => !e.destroyed

/-- The slot after an operation on its name, or why the operation fails. -/
def step (slot : Slot) : Operation → Except OperationError Slot
  | .create target attributes =>
    if (live? slot).isSome then .error (.alreadyExists target)
    else
      match (Entity.new target).setAttributes attributes with
      | .ok e => .ok (some e)
      | .error error => .error (.refused target error)
  | .modify target key op value =>
    match live? slot with
    | none => .error (.notFound target)
    | some e =>
      if Text.isBlank key then .error (.missingKey target)
      else if value.isNull then .error (.missingValue target)
      else
        match e.modifyAttribute key op value with
        | .ok next => .ok (some next)
        | .error error => .error (.refused target error)
  | .delete _ => .ok (slot.map fun e => { e with destroyed := true })

/-- A live entity is what the slot stores, and not destroyed. -/
theorem live?_eq_some_iff {slot : Slot} {e : Entity} :
    live? slot = some e ↔ slot = some e ∧ e.destroyed = false := by
  simp [live?, Option.filter_eq_some_iff]

/-- A destroyed entity is not live. -/
theorem live?_some (e : Entity) : live? (some e) = if e.destroyed then none else some e := by
  cases h : e.destroyed <;> simp [live?, h]

/-- All ways in which an operation succeeds. -/
theorem step_cases {slot next : Slot} {op : Operation} (h : step slot op = .ok next) :
    (∃ target attributes e, op = .create target attributes ∧ live? slot = none ∧
      (Entity.new target).setAttributes attributes = .ok e ∧ next = some e) ∨
    (∃ target key o v e changed, op = .modify target key o v ∧ slot = some e ∧
      e.destroyed = false ∧ Text.isBlank key = false ∧ v.isNull = false ∧
      e.modifyAttribute key o v = .ok changed ∧ next = some changed) ∨
    (∃ target, op = .delete target ∧ next = slot.map fun e => { e with destroyed := true }) := by
  cases op with
  | create target attributes =>
    simp only [step] at h
    split at h
    · cases h
    · next hl =>
      split at h
      · next e he =>
        cases h
        exact .inl ⟨target, attributes, e, rfl, by simpa using hl, he, rfl⟩
      · cases h
  | modify target key o v =>
    simp only [step] at h
    split at h
    · cases h
    · next e hl =>
      obtain ⟨hs, hd⟩ := live?_eq_some_iff.1 hl
      split at h
      · cases h
      · next hb =>
        split at h
        · cases h
        · next hn =>
          split at h
          · next changed hm =>
            cases h
            exact .inr (.inl ⟨target, key, o, v, e, changed, rfl, hs, hd, by simpa using hb,
              by simpa using hn, hm, rfl⟩)
          · cases h
  | delete target =>
    cases h
    exact .inr (.inr ⟨target, rfl, rfl⟩)

/-- Only an empty slot is left empty. -/
theorem eq_none_of_step {slot : Slot} {op : Operation} (h : step slot op = .ok none) :
    slot = none := by
  rcases step_cases h with ⟨_, _, _, _, _, _, hn⟩ | ⟨_, _, _, _, _, _, _, _, _, _, _, _, hn⟩ |
    ⟨_, _, hn⟩
  · cases hn
  · cases hn
  · simpa using hn.symm

/-- The slot after an operation with the outcome; a failed operation changes nothing. -/
def applyOne (slot : Slot) (op : Operation) : Slot × Outcome :=
  match step slot op with
  | .ok next => (next, ⟨op, none⟩)
  | .error error => (slot, ⟨op, some error⟩)

/-- The slot after a batch of operations on its name with their outcomes. -/
def apply (slot : Slot) : List Operation → Slot × List Outcome
  | [] => (slot, [])
  | op :: rest =>
    let (next, outcome) := applyOne slot op
    let (last, outcomes) := apply next rest
    (last, outcome :: outcomes)

@[simp] theorem apply_nil (slot : Slot) : apply slot [] = (slot, []) := rfl

/-- A batch is its first operation and then the rest. -/
theorem apply_cons (slot : Slot) (op : Operation) (rest : List Operation) :
    apply slot (op :: rest) =
      ((apply (applyOne slot op).1 rest).1,
        (applyOne slot op).2 :: (apply (applyOne slot op).1 rest).2) := rfl

/-- A batch in two parts is the parts one after the other. -/
theorem apply_append (slot : Slot) (first second : List Operation) :
    apply slot (first ++ second) =
      ((apply (apply slot first).1 second).1,
        (apply slot first).2 ++ (apply (apply slot first).1 second).2) := by
  induction first generalizing slot with
  | nil => rfl
  | cons op first ih => simp [apply_cons, ih]

/-- The outcome of an operation is about that operation. -/
@[simp] theorem operation_applyOne (slot : Slot) (op : Operation) :
    (applyOne slot op).2.operation = op := by
  unfold applyOne
  split <;> rfl

end Slot

namespace World

/-- A step of a world is the step of the slot that the operation targets. -/
theorem step_eq (w : World) (op : Operation) :
    w.step op =
      match Slot.step (w.stored? op.target) op with
      | .ok (some e) => .ok (w.store op.target e)
      | .ok none => .ok w
      | .error error => .error error := by
  cases op with
  | create target attributes =>
    have hc : (Slot.live? (w.stored? target)).isSome = w.contains target := rfl
    simp only [step, Slot.step, Operation.target, hc]
    cases w.contains target with
    | true => rfl
    | false => cases (Entity.new target).setAttributes attributes <;> rfl
  | modify target key op value =>
    simp only [step, Slot.step, live?, Slot.live?, Operation.target]
    cases Option.filter (fun e : Entity => !e.destroyed) (w.stored? target) with
    | none => rfl
    | some e =>
      simp only
      cases Text.isBlank key <;> cases value.isNull <;>
        cases e.modifyAttribute key op value <;> rfl
  | delete target =>
    simp only [step, Slot.step, Operation.target]
    cases w.stored? target <;> rfl

/-- The outcome of an operation shows in the slot of its target. -/
theorem outcome_applyOne (w : World) (op : Operation) :
    (w.applyOne op).2 = (Slot.applyOne (w.stored? op.target) op).2 := by
  simp only [applyOne, Slot.applyOne, step_eq]
  cases Slot.step (w.stored? op.target) op with
  | ok slot => cases slot <;> rfl
  | error error => rfl

/-- An operation changes the slot of its target and no other. -/
theorem stored?_applyOne (w : World) (op : Operation) (target : EntityId) :
    (w.applyOne op).1.stored? target =
      if op.target = target then (Slot.applyOne (w.stored? target) op).1
      else w.stored? target := by
  by_cases ht : op.target = target
  · subst ht
    simp only [applyOne, Slot.applyOne, step_eq, ite_true]
    cases hs : Slot.step (w.stored? op.target) op with
    | ok slot =>
      cases slot with
      | none => simpa using Slot.eq_none_of_step hs
      | some e => simp
    | error error => rfl
  · simp only [applyOne, step_eq, ht, ite_false]
    cases Slot.step (w.stored? op.target) op with
    | ok slot =>
      cases slot with
      | none => rfl
      | some e => exact stored?_store_ne w ht e
    | error error => rfl

/-- What a batch leaves under a name is what the operations on the name make of its slot. -/
theorem stored?_apply (w : World) (ops : List Operation) (target : EntityId) :
    (w.apply ops).1.stored? target =
      (Slot.apply (w.stored? target) (ops.filter fun op => op.target = target)).1 := by
  induction ops generalizing w with
  | nil => rfl
  | cons op ops ih =>
    rw [apply_cons, ih, stored?_applyOne]
    by_cases h : op.target = target <;> simp [h, Slot.apply_cons]

/-- The outcomes of the operations on a name are those in its slot. -/
theorem outcomes_apply (w : World) (ops : List Operation) (target : EntityId) :
    (w.apply ops).2.filter (fun o => o.operation.target = target) =
      (Slot.apply (w.stored? target) (ops.filter fun op => op.target = target)).2 := by
  induction ops generalizing w with
  | nil => rfl
  | cons op ops ih =>
    rw [apply_cons, List.filter_cons, ih, stored?_applyOne, outcome_applyOne]
    by_cases h : op.target = target
    · subst h
      simp [Slot.apply_cons]
    · simp [h]

/-- A batch succeeds when the operations on each name succeed in its slot. -/
theorem allSucceeded_apply_iff (w : World) (ops : List Operation) :
    Outcome.allSucceeded (w.apply ops).2 = true ↔
      ∀ target, Outcome.allSucceeded
        (Slot.apply (w.stored? target) (ops.filter fun op => op.target = target)).2 = true := by
  simp only [← outcomes_apply, Outcome.allSucceeded, List.all_eq_true, List.mem_filter,
    decide_eq_true_eq]
  exact ⟨fun h target o ho => h o ho.1, fun h o ho => h _ o ⟨ho, rfl⟩⟩

end World

end BranchingStory
