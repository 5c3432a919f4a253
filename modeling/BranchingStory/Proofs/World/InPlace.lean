import BranchingStory.Proofs.InPlace
import BranchingStory.World.Apply

/-!
# Operations in place

A world that is changed in place has nothing to go back to. Each operation is given here with its
checks and writes in their order: a new entity is built aside, attribute by attribute, and stored
when it is complete; a stored entity is changed where it stands; keys are taken from a copy of a map
one by one. An operation that fails at any of these steps has changed nothing by then, so operations
in place come out as those on the world as a value.
-/

namespace BranchingStory

open InPlace

namespace Operator

/-- Take keys away from a map in place, one after the other, up to the first that is no text. -/
def takeAway (key : String) : List Value → InPlace (Entries Value) AttributeError Unit
  | [] => pure ()
  | .text name :: rest => do
    modify (Entries.remove name)
    takeAway key rest
  | v :: _ => throw (.typeMismatch key .textKey v.type)

/-- The next value of an attribute, where keys are taken away from a copy of a map. No other
operator fails after it has begun. -/
def next (op : Operator) (key : String) (current : Option Value) (operand : Value) :
    Except AttributeError (Option Value) :=
  match op, current, operand with
  | .subtract, some (.map m), .list keys =>
    match onCopy m (takeAway key keys) with
    | .ok rest => .ok (some (.map rest))
    | .error e => .error e
  | op, current, operand => op.apply key current operand

/-- Keys that are taken away one after the other are those that are removed at once. -/
theorem onCopy_takeAway (key : String) (keys : List Value) (m : Entries Value) :
    onCopy m (takeAway key keys) =
      match keyTexts keys with
      | .ok names => .ok (Entries.removeAll names m)
      | .error found => .error (.typeMismatch key .textKey found) := by
  induction keys generalizing m with
  | nil =>
    simp only [onCopy, takeAway, on_pure, keyTexts, Except.ok.injEq]
    exact (List.filter_eq_self.2 fun _ _ => rfl).symm
  | cons v keys ih =>
    cases v with
    | text name =>
      have hrest := ih (Entries.remove name m)
      simp only [onCopy, takeAway, on_bind, on_modify, keyTexts] at hrest ⊢
      rw [hrest]
      cases keyTexts keys with
      | ok names =>
        simp only [Except.ok.injEq, Entries.removeAll, Entries.remove, List.filter_filter]
        refine List.filter_congr fun e _ => ?_
        rw [Bool.and_comm, List.contains_cons, Bool.not_or]
        rfl
      | error found => rfl
    | _ => rfl

/-- Taking keys away from a copy gives the next value that the operator gives. -/
theorem next_eq (op : Operator) (key : String) (current : Option Value) (operand : Value) :
    op.next key current operand = op.apply key current operand := by
  unfold next
  split
  · next m keys =>
    rw [onCopy_takeAway]
    simp only [Operator.apply, present?, Value.isNull, difference, Bool.false_eq_true, if_false]
    cases keyTexts keys <;> rfl
  · rfl

end Operator

namespace Entity

/-- Give an attribute a value in place. -/
def assign (key : String) (v : Value) : InPlace Entity AttributeError Unit :=
  match CoreAttribute.ofKey? key with
  | some .id | some .type => throw (.readOnly key)
  | some .destroyed =>
    match v with
    | .bool b => modify fun e => { e with destroyed := b }
    | other => throw (.typeMismatch key .bool other.type)
  | none => modify fun e => { e with attributes := Entries.put key v e.attributes }

/-- Give several attributes their values in place, up to the first that fails. -/
def assignAll : Entries Value → InPlace Entity AttributeError Unit
  | [] => pure ()
  | (key, v) :: rest => do
    assign key v
    assignAll rest

/-- Change an attribute in place. -/
def change (key : String) (op : Operator) (operand : Value) :
    InPlace Entity AttributeError Unit := do
  if (CoreAttribute.ofKey? key).isSome then
    if op ≠ .equal then throw (.coreOperator key op)
    assign key operand
  else
    match op.next key ((← get).attribute? key) operand with
    | .ok (some next) => modify fun e => { e with attributes := Entries.put key next e.attributes }
    | .ok none => pure ()
    | .error error => throw error

/-- An attribute is given its value in place as it is on an entity as a value. -/
theorem performs_assign (key : String) (v : Value) :
    Performs (assign key v) fun e => e.setAttribute key v := by
  intro e
  unfold assign setAttribute
  cases CoreAttribute.ofKey? key with
  | none => rfl
  | some core =>
    cases core with
    | destroyed => cases v <;> rfl
    | _ => rfl

/-- A new entity that is built aside is the one with these attributes, if it is completed. -/
theorem onCopy_assignAll (attributes : Entries Value) (e : Entity) :
    onCopy e (assignAll attributes) = e.setAttributes attributes := by
  induction attributes generalizing e with
  | nil => rfl
  | cons entry attributes ih =>
    have hfirst := performs_assign entry.1 entry.2 e
    simp only [onCopy, assignAll, on_bind, setAttributes] at ih hfirst ⊢
    rw [hfirst]
    cases e.setAttribute entry.1 entry.2 with
    | ok next => exact ih next
    | error error => rfl

/-- Attributes that are given one by one to an entity where it stands do leave a trace: the first is
there although the second one fails. -/
example :
    (on (Entity.new ⟨.item, "cup"⟩)
      (assignAll [("size", .bool true), ("EntityId", .null)])).2.hasAttribute "size" = true := by
  decide +kernel

/-- An attribute is changed in place as it is on an entity as a value. -/
theorem performs_change (key : String) (op : Operator) (operand : Value) :
    Performs (change key op operand) fun e => e.modifyAttribute key op operand := by
  intro e
  unfold change modifyAttribute
  by_cases hcore : (CoreAttribute.ofKey? key).isSome = true
  · by_cases hequal : op = .equal
    · simpa [hcore, hequal, on_bind] using performs_assign key operand e
    · simp [hcore, hequal]
  · rw [if_neg hcore, on_bind, on_get]
    simp only [if_neg hcore, Operator.next_eq]
    cases op.apply key (e.attribute? key) operand with
    | ok next => cases next <;> rfl
    | error error => rfl

end Entity

namespace World

/-- Run a computation on the stored entity of a name where it stands. What the computation has
written is in the world, also if it fails. -/
def within (target : EntityId) (x : InPlace Entity AttributeError Unit) :
    InPlace World OperationError Unit := do
  match (← get).stored? target with
  | none => throw (.notFound target)
  | some e =>
    let (result, written) := on e x
    modify fun w => w.store target written
    match result with
    | .ok _ => pure ()
    | .error error => throw (.refused target error)

/-- An operation that changes the world in place. -/
def act : Operation → InPlace World OperationError Unit
  | .create target attributes => do
    if (← get).contains target then throw (.alreadyExists target)
    match onCopy (Entity.new target) (Entity.assignAll attributes) with
    | .ok e => modify fun w => w.store target e
    | .error error => throw (.refused target error)
  | .modify target key op value => do
    if ¬(← get).contains target then throw (.notFound target)
    if Text.isBlank key then throw (.missingKey target)
    if value.isNull then throw (.missingValue target)
    within target (Entity.change key op value)
  | .delete target => do
    if ((← get).stored? target).isSome then
      within target (modify fun e => { e with destroyed := true })

/-- Apply an operation in place, whether it succeeds or fails. -/
def attempt (op : Operation) : StateM World Outcome := do
  match ← (act op).run with
  | .ok _ => pure ⟨op, none⟩
  | .error error => pure ⟨op, some error⟩

/-- Apply the operations of a batch in place, one after the other. -/
def attemptAll (ops : List Operation) : StateM World (List Outcome) := ops.mapM attempt

/-- Storing what is stored changes nothing. -/
theorem store_stored {w : World} {target : EntityId} {e : Entity} (h : w.stored? target = some e) :
    w.store target e = w := by
  refine ext_stored? fun other => ?_
  by_cases ht : target = other
  · subst ht
    rw [stored?_store_self, h]
  · exact stored?_store_ne w ht e

/-- A computation on a stored entity that leaves no trace there when it fails leaves none in the
world. -/
theorem on_within {w : World} {target : EntityId} {e : Entity} (he : w.stored? target = some e)
    {x : InPlace Entity AttributeError Unit} {f : Entity → Except AttributeError Entity}
    (h : Performs x f) :
    on w (within target x) =
      match f e with
      | .ok next => (.ok (), w.store target next)
      | .error error => (.error (.refused target error), w) := by
  simp only [within, on_bind, on_get, he, h e]
  cases f e with
  | ok next => rfl
  | error error =>
    simp only [on_modify, on_throw]
    rw [store_stored he]

/-- An operation in place does what it does to the world as a value, and leaves the world as it was
if it fails. -/
theorem performs_act (op : Operation) : Performs (act op) fun w => w.step op := by
  intro w
  cases op with
  | create target attributes =>
    simp only [act, step, on_bind, on_get, Entity.onCopy_assignAll]
    cases w.contains target with
    | true => rfl
    | false => cases (Entity.new target).setAttributes attributes <;> rfl
  | modify target key op value =>
    simp only [act, step, on_bind, on_get, contains]
    cases hlive : w.live? target with
    | none => rfl
    | some e =>
      have hstored : w.stored? target = some e := (Option.filter_eq_some_iff.1 hlive).1
      cases Text.isBlank key with
      | true => rfl
      | false =>
        cases value.isNull with
        | true => rfl
        | false =>
          have hchange := on_within hstored (Entity.performs_change key op value)
          simp only [Option.isSome_some, not_true_eq_false, Bool.false_eq_true, if_false, hchange]
          cases e.modifyAttribute key op value <;> rfl
  | delete target =>
    simp only [act, step, on_bind, on_get]
    cases hstored : w.stored? target with
    | none => rfl
    | some e =>
      have hmark : Performs (modify fun e : Entity => { e with destroyed := true })
          fun e => (.ok { e with destroyed := true } : Except AttributeError Entity) :=
        fun _ => rfl
      simpa using on_within hstored hmark

/-- An operation in place has the outcome that it has on the world as a value, and leaves the same
world. -/
theorem run_attempt (op : Operation) (w : World) :
    (attempt op).run w = ((w.applyOne op).2, (w.applyOne op).1) := by
  have hact := performs_act op w
  unfold on at hact
  rw [attempt, StateT.run_bind, hact, applyOne]
  dsimp only
  cases w.step op <;> rfl

/-- A batch in place has the outcomes that it has on the world as a value, and leaves the same
world. -/
theorem run_attemptAll (ops : List Operation) (w : World) :
    (attemptAll ops).run w = ((w.apply ops).2, (w.apply ops).1) := by
  induction ops generalizing w with
  | nil => rfl
  | cons op ops ih =>
    rw [attemptAll, List.mapM_cons, StateT.run_bind, run_attempt]
    change
      (attemptAll ops >>= fun rest => pure ((w.applyOne op).2 :: rest)).run (w.applyOne op).1 = _
    rw [StateT.run_bind, ih (w.applyOne op).1]
    rfl

end World

end BranchingStory
