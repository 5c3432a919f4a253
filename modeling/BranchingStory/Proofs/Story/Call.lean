import BranchingStory.Proofs.Block.Step
import BranchingStory.Story.Snapshot

/-!
# Calls on a story

Each call is about one block of the story. It is refused with an error, or answered without a change
because the phase of the block does not allow it, or the block takes a step and is put back. Only
creating a child registers a block as well. What a call may do is said once here, and everything
about runs follows from it.
-/

namespace BranchingStory

/-- A call that may change a story. -/
inductive Call where
  /-- Create a child of a block, the root unless said otherwise. -/
  | createChild (parent : Option BlockId) (id : BlockId) (time : String) (params : Entries Value)
  /-- Submit operations of the user. -/
  | submit (id : BlockId) (ops : List Operation)
  /-- Complete a block with what the generator delivers. -/
  | complete (id : BlockId) (delivery : Block.Delivery)
  /-- Resolve a conflict. -/
  | resolve (id : BlockId) (batch : List Operation)
  /-- Change the text and the metadata of a block. -/
  | updateDetails (id : BlockId) (content : Option String) (metadata : Entries (Option Value))
  /-- Change the settings of a block. -/
  | updateGameState (id : BlockId) (settings : Entries Value)
  /-- Follow another child of a block. -/
  | selectChild (id : BlockId) (index : Nat)

/-- What a call that is not refused answers. -/
inductive Answer where
  /-- The new child. -/
  | child (b : Block)
  /-- What became of submitted operations. -/
  | submission (submission : Submission)
  /-- What became of a completion or resolution. -/
  | advance (advance : Advance)
  /-- The phase of the block. -/
  | status (status : Status)
  /-- Nothing. -/
  | done

/-- A block before and after a call on it that it takes, with the answer. -/
inductive Block.Step (b : Block) : Call → Block → Answer → Prop
  /-- The user's operations were taken. -/
  | submit {next : Block} {outcomes : List Outcome} (id : BlockId) (ops : List Operation)
    (h : b.submit? ops = some (next, outcomes)) :
    Step b (.submit id ops) next (.submission (.applied b.status outcomes))
  /-- The generator delivered. -/
  | complete {Memory : Type} {next : Block} {outcomes : List Outcome} {last : Memory} (id : BlockId)
    (renamer : Renamer Memory) (memory : Memory) (delivery : Delivery)
    (h : b.complete? renamer memory delivery = some (next, outcomes, last)) :
    Step b (.complete id delivery) next (.advance (.moved ⟨id, b.status, next.status, outcomes⟩))
  /-- The user resolved a conflict. -/
  | resolve {next : Block} {outcomes : List Outcome} (id : BlockId) (batch : List Operation)
    (h : b.resolve? batch = some (next, outcomes)) :
    Step b (.resolve id batch) next (.advance (.moved ⟨id, b.status, next.status, outcomes⟩))
  /-- Text and metadata were changed. -/
  | details (id : BlockId) (h : b.status = .idle) (content : Option String)
    (metadata : Entries (Option Value)) :
    Step b (.updateDetails id content metadata) (b.withDetails content metadata) .done
  /-- Settings were changed. -/
  | settings (id : BlockId) (settings : Entries Value) :
    Step b (.updateGameState id settings) (b.withSettings settings) (.status b.status)
  /-- Another child is followed. -/
  | select {next : Block} (id : BlockId) (index : Nat) (h : b.select? index = some next) :
    Step b (.selectChild id index) next .done

/-- A step keeps the links and the input world of a block. -/
theorem Block.Step.keeps {b next : Block} {call : Call} {answer : Answer}
    (h : b.Step call next answer) : b.Keeps next := by
  cases h with
  | submit id ops h =>
    rcases submit?_cases h with ⟨_, _, _, _, rfl⟩ | ⟨_, _, _, _, rfl⟩ <;>
      exact ⟨rfl, rfl, rfl, rfl, .inl rfl⟩
  | complete id renamer memory delivery h =>
    rcases complete?_cases h with ⟨_, _, _, ⟨_, _, rfl⟩ |
      ⟨_, metadata, _, _, _, ⟨_, hcommit⟩ | ⟨_, _, _, rfl⟩⟩⟩
    · exact ⟨rfl, rfl, rfl, rfl, .inl rfl⟩
    · obtain ⟨hid, hparent, hchildren, hinput, hselected⟩ := keeps_of_commit hcommit
      exact ⟨hid, hparent, hchildren, hinput, hselected⟩
    · exact ⟨rfl, rfl, rfl, rfl, .inl rfl⟩
  | resolve id batch h => exact keeps_of_commit (resolve?_cases h).2
  | details id h content metadata => exact ⟨rfl, rfl, rfl, rfl, .inl rfl⟩
  | settings id settings => exact ⟨rfl, rfl, rfl, rfl, .inl rfl⟩
  | select id index h =>
    obtain ⟨hindex, rfl⟩ := select?_cases h
    exact ⟨rfl, rfl, rfl, rfl, .inr ⟨index, hindex, rfl⟩⟩

/-- What is made of a result comes from that result. -/
theorem exists_of_map_eq_ok {ε α β : Type} {x : Except ε α} {f : α → β} {y : β}
    (h : x.map f = .ok y) : ∃ a, x = .ok a ∧ f a = y := by
  cases x with
  | error e => cases h
  | ok a => exact ⟨a, rfl, Except.ok.inj h⟩

namespace Story

variable {Memory : Type}

/-- The story after a call and the answer, or why the call is refused. -/
def perform (s : Story Memory) : Call → Except StoryError (Story Memory × Answer)
  | .createChild parent id time params =>
    (s.createChild parent id time params).map fun r => (r.1, .child r.2)
  | .submit id ops => (s.submit id ops).map fun r => (r.1, .submission r.2)
  | .complete id delivery => (s.complete id delivery).map fun r => (r.1, .advance r.2)
  | .resolve id batch => (s.resolve id batch).map fun r => (r.1, .advance r.2)
  | .updateDetails id content metadata =>
    (s.updateDetails id content metadata).map fun t => (t, .done)
  | .updateGameState id settings =>
    (s.updateGameState id settings).map fun r => (r.1, .status r.2)
  | .selectChild id index => (s.selectChild id index).map fun t => (t, .done)

/-- The block that a call is about. A new child is about its parent. -/
def subject (s : Story Memory) : Call → BlockId
  | .createChild parent _ _ _ => parent.getD s.rootId
  | .submit id _ => id
  | .complete id _ => id
  | .resolve id _ => id
  | .updateDetails id _ _ => id
  | .updateGameState id _ => id
  | .selectChild id _ => id

variable {s t : Story Memory}

/-- A block is got when it is registered. -/
theorem get_eq_ok_iff {id : BlockId} {b : Block} :
    s.get id = .ok b ↔ s.blocks.get? id = some b := by
  unfold get
  split <;> simp_all

/-- What is registered under an id is what is got. -/
theorem get?_eq_toOption (s : Story Memory) (id : BlockId) :
    s.blocks.get? id = (s.get id).toOption := by
  unfold get
  cases s.blocks.get? id <;> rfl

/-- A block that was put in its place is got from there, and other places stay as they are. -/
theorem get_put (s : Story Memory) (b : Block) (id : BlockId) :
    (s.put b).get id = if b.id = id then .ok b else s.get id := by
  unfold get put
  by_cases h : b.id = id
  · subst h
    simp
  · simp [h, Table.get?_insert_ne _ h]

/-- A completion whose merged batch does not block and succeeds moves a loading block to idle, on
the world that the batch leads to. -/
theorem complete_of_leads {id : BlockId} {b : Block} {d : Block.Delivery} {scratch w : World}
    {queue : List Operation} {report : Merge.Report} (hb : s.get id = .ok b) (hid : b.id = id)
    (hphase : b.phase = .loading scratch queue) (hsuccess : d.success = true)
    (hreport : (Merge.detect s.renamer b.input d.operations queue s.memory).1 = report)
    (hconflict : report.conflict = none) (hleads : b.input.Leads report.merged w) :
    ∃ t next, s.complete id d =
        .ok (t, .moved ⟨id, .loading, .idle, Outcome.successes report.merged⟩) ∧
      t.get id = .ok next ∧ next.phase = .idle (some w) w := by
  obtain ⟨next, memory, hcomplete, hnext, hidle⟩ :=
    Block.complete?_of_leads hphase hsuccess hreport hconflict hleads
  have hstatus : b.status = .loading := by rw [Block.status, hphase, Phase.status]
  have hstatus' : next.status = .idle := by rw [Block.status, hidle, Phase.status]
  refine ⟨{ s.put next with memory }, next, ?_, ?_, hidle⟩
  · simp only [complete, hb, hcomplete, hstatus, hstatus']
  · change (s.put next).get id = .ok next
    rw [get_put, if_pos (hnext.trans hid)]

/-- All ways in which a call that is not refused changes a story and is answered. -/
theorem perform_cases {call : Call} {answer : Answer} (h : s.perform call = .ok (t, answer)) :
    ∃ b, s.get (s.subject call) = .ok b ∧
      (t = s ∧ (answer = .submission (.notApplied b.status) ∨
          answer = .advance (.notApplicable b.status)) ∨
        (∃ next memory, b.Step call next answer ∧ t = { s.put next with memory }) ∨
        ∃ parent current id time params, call = .createChild parent id time params ∧
          b.settled? = some current ∧ s.blocks.has id = false ∧
          answer = .child (b.child current id time params) ∧
          t = (s.put (b.child current id time params)).put (b.attach id params)) := by
  cases call with
  | createChild parent id time params =>
    simp only [perform, createChild] at h
    split at h
    · cases h
    · next b hb =>
      refine ⟨b, hb, .inr (.inr ?_)⟩
      split at h
      · next merged current hphase =>
        split at h
        · cases h
        · next hnew =>
          cases h
          have hsettled : b.settled? = some current := by rw [Block.settled?, hphase]
          exact ⟨parent, current, id, time, params, rfl, hsettled, by simpa using hnew, rfl, rfl⟩
      · cases h
  | submit id ops =>
    simp only [perform, submit] at h
    split at h
    · cases h
    · next b hb =>
      refine ⟨b, hb, ?_⟩
      split at h
      · next next outcomes hs =>
        cases h
        exact .inr (.inl ⟨next, s.memory, .submit id ops hs, rfl⟩)
      · cases h
        exact .inl ⟨rfl, .inl rfl⟩
  | complete id delivery =>
    simp only [perform, complete] at h
    split at h
    · cases h
    · next b hb =>
      refine ⟨b, hb, ?_⟩
      split at h
      · next next outcomes memory hs =>
        cases h
        exact .inr (.inl ⟨next, memory, .complete id s.renamer s.memory delivery hs, rfl⟩)
      · cases h
        exact .inl ⟨rfl, .inr rfl⟩
  | resolve id batch =>
    simp only [perform, resolve] at h
    split at h
    · cases h
    · next b hb =>
      refine ⟨b, hb, ?_⟩
      split at h
      · next next outcomes hs =>
        cases h
        exact .inr (.inl ⟨next, s.memory, .resolve id batch hs, rfl⟩)
      · cases h
        exact .inl ⟨rfl, .inr rfl⟩
  | updateDetails id content metadata =>
    simp only [perform, updateDetails] at h
    split at h
    · cases h
    · next b hb =>
      refine ⟨b, hb, .inr (.inl ?_)⟩
      split at h
      · next hidle =>
        cases h
        exact ⟨_, s.memory, .details id hidle content metadata, rfl⟩
      · cases h
  | updateGameState id settings =>
    simp only [perform, updateGameState] at h
    split at h
    · cases h
    · next b hb =>
      cases h
      exact ⟨b, hb, .inr (.inl ⟨_, s.memory, .settings id settings, rfl⟩)⟩
  | selectChild id index =>
    simp only [perform, selectChild] at h
    split at h
    · cases h
    · next b hb =>
      refine ⟨b, hb, .inr (.inl ?_)⟩
      split at h
      · next next hs =>
        cases h
        exact ⟨next, s.memory, .select id index hs, rfl⟩
      · cases h

end Story

end BranchingStory
