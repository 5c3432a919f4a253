import BranchingStory.Proofs.Merge.Conflicts
import BranchingStory.Proofs.Story.Call

/-!
# The phases of a block

A loading block moves to one of the other phases when it is completed, a block with a conflict moves
on when it is resolved, and an idle or failed block stays what it is. So what a block was made with
is kept for good, its children only become more, and the world right after the merge is settled once
the block is idle. Only idle blocks have children, and a conflict has operations on both sides.
-/

namespace BranchingStory

/-- A phase may be followed by another one. -/
inductive Status.Moves : Status → Status → Prop
  /-- The merged batch of a completion succeeded. -/
  | completed : Moves .loading .idle
  /-- The generator or the merged batch failed. -/
  | failed : Moves .loading .error
  /-- The batches of a completion are in conflict. -/
  | blocked : Moves .loading .resolvingConflict
  /-- The batch of a resolution succeeded. -/
  | resolved : Moves .resolvingConflict .idle
  /-- The batch of a resolution failed. -/
  | rejected : Moves .resolvingConflict .error

/-- Two moves make one. -/
theorem Status.Moves.trans {a b c : Status} (hab : a.Moves b) (hbc : b.Moves c) : a.Moves c := by
  cases hab <;> cases hbc
  · exact .completed
  · exact .failed

namespace Block

variable {b next last : Block}

/-- A block has no current world exactly when it has failed. -/
theorem current?_eq_none_iff (b : Block) : b.current? = none ↔ b.status = .error := by
  unfold current? status
  cases b.phase <;> simp [Phase.status]

/-- A block with a settled world is idle. -/
theorem status_of_settled? {current : World} (h : b.settled? = some current) :
    b.status = .idle := by
  rw [status, phase_of_settled? h, Phase.status]

/-- A commit ends in an idle or in a failed block. -/
theorem status_of_commit {content : String} {batch : List Operation} {outcomes : List Outcome}
    (h : b.commit content batch = (next, outcomes)) :
    next.status = .idle ∨ next.status = .error := by
  rcases b.commit_cases content batch with ⟨w, -, hc⟩ | ⟨-, hc⟩ <;> rw [hc] at h <;> cases h
  · exact .inl rfl
  · exact .inr rfl

/-- A completion moves a loading block. -/
theorem moves_of_complete? {Memory : Type} {renamer : Renamer Memory} {memory last : Memory}
    {d : Delivery} {outcomes : List Outcome}
    (h : b.complete? renamer memory d = some (next, outcomes, last)) :
    b.status = .loading ∧ Status.loading.Moves next.status := by
  obtain ⟨scratch, queue, hphase, hcases⟩ := complete?_cases h
  refine ⟨by rw [status, hphase, Phase.status], ?_⟩
  rcases hcases with ⟨-, -, rfl⟩ | ⟨-, metadata, report, -, -, ⟨-, hcommit⟩ | ⟨conflict, -, -, rfl⟩⟩
  · exact .failed
  · rcases status_of_commit hcommit with hstatus | hstatus <;> rw [hstatus]
    · exact .completed
    · exact .failed
  · exact .blocked

/-- A resolution moves a block with a conflict. -/
theorem moves_of_resolve? {batch : List Operation} {outcomes : List Outcome}
    (h : b.resolve? batch = some (next, outcomes)) :
    b.status = .resolvingConflict ∧ Status.resolvingConflict.Moves next.status := by
  obtain ⟨hstatus, hcommit⟩ := resolve?_cases h
  refine ⟨hstatus, ?_⟩
  rcases status_of_commit hcommit with hnext | hnext <;> rw [hnext]
  · exact .resolved
  · exact .rejected

/-- Only a loading block is completed. -/
theorem complete?_of_ne_loading {Memory : Type} (renamer : Renamer Memory) (memory : Memory)
    (d : Delivery) (h : b.status ≠ .loading) : b.complete? renamer memory d = none := by
  cases hc : b.complete? renamer memory d with
  | none => rfl
  | some r => exact absurd (moves_of_complete? hc).1 h

/-- Only a block with a conflict is resolved. -/
theorem resolve?_of_ne_resolvingConflict (batch : List Operation)
    (h : b.status ≠ .resolvingConflict) : b.resolve? batch = none := by
  cases hr : b.resolve? batch with
  | none => rfl
  | some r => exact absurd (moves_of_resolve? hr).1 h

/-- The user's operations leave a block in its phase. -/
theorem status_of_submit? {ops : List Operation} {outcomes : List Outcome}
    (h : b.submit? ops = some (next, outcomes)) :
    next.status = b.status ∧ next.merged? = b.merged? := by
  rcases submit?_cases h with ⟨merged, current, hphase, -, rfl⟩ | ⟨scratch, queue, hphase, -, rfl⟩
  all_goals rw [status, status, merged?, merged?, hphase]
  all_goals exact ⟨rfl, rfl⟩

/-- What becomes of a block in the course of a story. -/
structure Continues (b next : Block) : Prop where
  /-- It has the same id. -/
  id_eq : next.id = b.id
  /-- It continues the same block. -/
  parent_eq : next.parent = b.parent
  /-- It starts from the same world. -/
  input_eq : next.input = b.input
  /-- It has the same children, and perhaps more at the end. -/
  children : b.children <+: next.children
  /-- It is in the same phase or has moved to a later one. -/
  status : next.status = b.status ∨ b.status.Moves next.status
  /-- Once it is idle, the world right after the merge is settled. -/
  merged : b.status = .idle → next.merged? = b.merged?

/-- An idle block stays idle. -/
theorem Continues.idle (h : b.Continues next) (hidle : b.status = .idle) : next.status = .idle := by
  rcases h.status with hstatus | hmoves
  · exact hstatus.trans hidle
  · rw [hidle] at hmoves
    cases hmoves

/-- A block becomes itself. -/
theorem Continues.refl (b : Block) : b.Continues b :=
  ⟨rfl, rfl, rfl, List.prefix_refl _, .inl rfl, fun _ => rfl⟩

/-- What becomes of a block goes on. -/
theorem Continues.trans (h : b.Continues next) (h' : next.Continues last) : b.Continues last where
  id_eq := h'.id_eq.trans h.id_eq
  parent_eq := h'.parent_eq.trans h.parent_eq
  input_eq := h'.input_eq.trans h.input_eq
  children := h.children.trans h'.children
  status := by
    rcases h.status with hstatus | hmoves
    · rw [← hstatus]
      exact h'.status
    · rcases h'.status with hstatus' | hmoves'
      · exact .inr (hstatus' ▸ hmoves)
      · exact .inr (hmoves.trans hmoves')
  merged hidle := (h'.merged (h.idle hidle)).trans (h.merged hidle)

/-- A step leaves a block in its phase or moves it, and an idle block keeps the world right after
the merge. -/
theorem Step.continues {call : Call} {answer : Answer} (h : b.Step call next answer) :
    b.Continues next := by
  obtain ⟨hid, hparent, hchildren, hinput, -⟩ := h.keeps
  have hprefix : b.children <+: next.children := hchildren ▸ List.prefix_refl _
  suffices hphase : (next.status = b.status ∨ b.status.Moves next.status) ∧
      (b.status = .idle → next.merged? = b.merged?) from
    ⟨hid, hparent, hinput, hprefix, hphase.1, hphase.2⟩
  cases h with
  | submit id ops hs =>
    obtain ⟨hstatus, hmerged⟩ := status_of_submit? hs
    exact ⟨.inl hstatus, fun _ => hmerged⟩
  | complete id renamer memory delivery hc =>
    obtain ⟨hloading, hmoves⟩ := moves_of_complete? hc
    rw [hloading]
    exact ⟨.inr hmoves, fun hidle => by cases hidle⟩
  | resolve id batch hr =>
    obtain ⟨hresolving, hmoves⟩ := moves_of_resolve? hr
    rw [hresolving]
    exact ⟨.inr hmoves, fun hidle => by cases hidle⟩
  | details id hidle content metadata => exact ⟨.inl rfl, fun _ => rfl⟩
  | settings id settings => exact ⟨.inl rfl, fun _ => rfl⟩
  | select id index hs =>
    obtain ⟨-, rfl⟩ := select?_cases hs
    exact ⟨.inl rfl, fun _ => rfl⟩

/-- A new child leaves its parent in its phase. -/
theorem continues_attach (b : Block) (id : BlockId) (params : Entries Value) :
    b.Continues (b.attach id params) :=
  ⟨rfl, rfl, rfl, List.prefix_append _ _, .inl rfl, fun _ => rfl⟩

/-- What is known of a block in every phase. -/
structure Coherent (b : Block) : Prop where
  /-- Only an idle block has children. -/
  idle_of_children : b.children ≠ [] → b.status = .idle
  /-- A conflict has operations on both sides. -/
  conflict : ∀ {scratch queue generated edited conflict},
    b.phase = .resolving scratch queue generated edited conflict →
      conflict.generated ≠ [] ∧ conflict.edited ≠ []

/-- A coherent block that waits for the user has operations of both sides in conflict. -/
theorem Coherent.exists_conflict (h : b.Coherent) (hstatus : b.status = .resolvingConflict) :
    ∃ scratch queue generated edited conflict,
      b.phase = .resolving scratch queue generated edited conflict ∧
        conflict.generated ≠ [] ∧ conflict.edited ≠ [] := by
  rw [status] at hstatus
  cases hphase : b.phase with
  | resolving scratch queue generated edited conflict =>
    exact ⟨_, _, _, _, _, rfl, h.conflict hphase⟩
  | _ =>
    rw [hphase] at hstatus
    cases hstatus

/-- An idle block is coherent. -/
theorem Coherent.of_idle (h : b.status = .idle) : b.Coherent where
  idle_of_children _ := h
  conflict hphase := by
    rw [status, hphase] at h
    cases h

/-- A new child is coherent. -/
theorem Coherent.child (b : Block) (current : World) (id : BlockId) (time : String)
    (params : Entries Value) : (b.child current id time params).Coherent :=
  ⟨fun hne => absurd rfl hne, fun hphase => by cases hphase⟩

/-- A step leaves a coherent block. -/
theorem Coherent.step {call : Call} {answer : Answer} (h : b.Coherent)
    (hstep : b.Step call next answer) : next.Coherent := by
  refine ⟨fun hne => ?_, fun {scratch queue generated edited conflict} hphase => ?_⟩
  · rw [hstep.keeps.children_eq] at hne
    exact hstep.continues.idle (h.idle_of_children hne)
  · have hstatus : next.status = .resolvingConflict := by rw [status, hphase, Phase.status]
    cases hstep with
    | submit id ops hs =>
      rcases submit?_cases hs with ⟨_, _, _, -, rfl⟩ | ⟨_, _, _, -, rfl⟩ <;> cases hphase
    | complete id renamer memory delivery hc =>
      obtain ⟨_, _, -, hcases⟩ := complete?_cases hc
      rcases hcases with ⟨-, -, rfl⟩ |
        ⟨-, metadata, report, hreport, -, ⟨-, hcommit⟩ | ⟨found, hfound, -, rfl⟩⟩
      · cases hphase
      · rcases status_of_commit hcommit with hnext | hnext <;> rw [hnext] at hstatus <;>
          cases hstatus
      · cases hphase
        rw [hreport] at hfound
        exact Merge.ne_nil_of_conflict? hfound
    | resolve id batch hr =>
      rcases status_of_commit (resolve?_cases hr).2 with hnext | hnext <;> rw [hnext] at hstatus <;>
        cases hstatus
    | details id hidle content metadata => exact h.conflict hphase
    | settings id settings => exact h.conflict hphase
    | select id index hs =>
      obtain ⟨-, rfl⟩ := select?_cases hs
      exact h.conflict hphase

end Block

end BranchingStory
