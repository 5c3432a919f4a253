import BranchingStory.Block.Advance
import BranchingStory.Proofs.World.Replay

/-!
# Steps of a block

What a call may do to a block is settled by its phase. A commit either leads from the input world to
the world of an idle block or fails the block. The user's operations change the current world of an
idle block, and the scratch world and the queue of a loading one. Everything else is about links,
text and settings.
-/

namespace BranchingStory.Block

/-- A commit makes a block idle on the world that the batch leads to, or fails it. -/
theorem commit_cases (b : Block) (content : String) (batch : List Operation) :
    (∃ w, b.input.Leads batch w ∧
      b.commit content batch =
        ({ b with content, phase := .idle (some w) w }, Outcome.successes batch)) ∨
    (Outcome.allSucceeded (b.input.apply batch).2 = false ∧
      b.commit content batch =
        ({ b with
            content
            metadata := Entries.put MetadataKey.error.name
              (.list ((Outcome.failures (b.input.apply batch).2).map failureEntry)) b.metadata
            phase := .failed .operationsFailed }, (b.input.apply batch).2)) := by
  cases h : Outcome.allSucceeded (b.input.apply batch).2 with
  | true =>
    have hleads := World.leads_iff.2 ⟨h, rfl⟩
    refine .inl ⟨_, hleads, ?_⟩
    simp only [commit, h, if_true]
    rw [hleads]
  | false =>
    refine .inr ⟨rfl, ?_⟩
    simp only [commit, h, Bool.false_eq_true, if_false]

/-- The user's operations are taken by idle and by loading blocks. -/
theorem submit?_cases {b next : Block} {ops : List Operation} {outcomes : List Outcome}
    (h : b.submit? ops = some (next, outcomes)) :
    (∃ merged current, b.phase = .idle merged current ∧ outcomes = (current.apply ops).2 ∧
      next = { b with phase := .idle merged (current.apply ops).1 }) ∨
    (∃ scratch queue, b.phase = .loading scratch queue ∧ outcomes = (scratch.apply ops).2 ∧
      next = { b with
        phase := .loading (scratch.apply ops).1
          (queue ++ Outcome.successful (scratch.apply ops).2) }) := by
  unfold submit? at h
  split at h
  · next merged current hphase =>
    cases h
    exact .inl ⟨merged, current, hphase, rfl, rfl⟩
  · next scratch queue hphase =>
    cases h
    exact .inr ⟨scratch, queue, hphase, rfl, rfl⟩
  · cases h

/-- The generator completes a loading block: the block fails with the generator, or the batches are
committed, or they block and wait for the user. -/
theorem complete?_cases {Memory : Type} {renamer : Renamer Memory} {memory last : Memory}
    {b next : Block} {d : Delivery} {outcomes : List Outcome}
    (h : b.complete? renamer memory d = some (next, outcomes, last)) :
    ∃ scratch queue, b.phase = .loading scratch queue ∧
      ((d.success = false ∧ outcomes = [] ∧
          next = { b with phase := .failed .generatorFailed }) ∨
        (d.success = true ∧ ∃ metadata report,
          report = (Merge.detect renamer b.input d.operations queue memory).1 ∧
          metadata = Entries.put MetadataKey.outputVariables.name (.map d.output) b.metadata ∧
          ((report.conflict = none ∧
              { b with metadata }.commit d.content report.merged = (next, outcomes)) ∨
            ∃ conflict, report.conflict = some conflict ∧ outcomes = [] ∧
              next = { b with
                metadata
                content := d.content
                phase := .resolving scratch queue report.generated report.edited conflict }))) := by
  unfold complete? at h
  split at h
  · next scratch queue hphase =>
    refine ⟨scratch, queue, hphase, ?_⟩
    split at h
    · next hsuccess =>
      refine .inr ⟨hsuccess, _, _, rfl, rfl, ?_⟩
      simp only at h
      split at h
      · next hconflict =>
        cases h
        exact .inl ⟨hconflict, rfl⟩
      · next conflict hconflict =>
        cases h
        exact .inr ⟨conflict, hconflict, rfl, rfl⟩
    · next hsuccess =>
      cases h
      exact .inl ⟨by simpa using hsuccess, rfl, rfl⟩
  · cases h

/-- A loading block whose merged batch does not block and succeeds becomes idle on the world that
the batch leads to. -/
theorem complete?_of_leads {Memory : Type} {renamer : Renamer Memory} {memory : Memory} {b : Block}
    {d : Delivery} {scratch w : World} {queue : List Operation} {report : Merge.Report}
    (hphase : b.phase = .loading scratch queue) (hsuccess : d.success = true)
    (hreport : (Merge.detect renamer b.input d.operations queue memory).1 = report)
    (hconflict : report.conflict = none) (hleads : b.input.Leads report.merged w) :
    ∃ next last, b.complete? renamer memory d =
        some (next, Outcome.successes report.merged, last) ∧
      next.id = b.id ∧ next.phase = .idle (some w) w := by
  subst hreport
  obtain ⟨hs, rfl⟩ := World.leads_iff.1 hleads
  simp only [complete?, hphase, hsuccess, if_true, hconflict, commit, hs]
  rw [hleads]
  exact ⟨_, _, rfl, rfl, rfl⟩

/-- The user resolves the conflict of a block that waits for it. -/
theorem resolve?_cases {b next : Block} {batch : List Operation} {outcomes : List Outcome}
    (h : b.resolve? batch = some (next, outcomes)) :
    b.status = .resolvingConflict ∧ b.commit b.content batch = (next, outcomes) := by
  unfold resolve? at h
  split at h
  · next hphase =>
    exact ⟨by rw [status, hphase, Phase.status], Option.some.inj h⟩
  · cases h

/-- Another child is followed by the same block otherwise. -/
theorem select?_cases {b next : Block} {index : Nat} (h : b.select? index = some next) :
    index < b.children.length ∧ next = { b with selected := some index } := by
  unfold select? at h
  split at h
  · next hindex =>
    cases h
    exact ⟨hindex, rfl⟩
  · cases h

/-- A current world of an idle block is the one that its phase holds. -/
theorem phase_of_settled? {b : Block} {current : World} (h : b.settled? = some current) :
    b.phase = .idle b.merged? current := by
  unfold settled? at h
  unfold merged?
  split at h
  · next merged c hphase =>
    cases h
    rw [hphase]
  · cases h

/-- What a block keeps as long as it gets no child. -/
structure Keeps (b next : Block) : Prop where
  /-- It has the same id. -/
  id_eq : next.id = b.id
  /-- It continues the same block. -/
  parent_eq : next.parent = b.parent
  /-- It has the same children. -/
  children_eq : next.children = b.children
  /-- It starts from the same world. -/
  input_eq : next.input = b.input
  /-- It follows the same child or one of its children. -/
  selected_cases : next.selected = b.selected ∨
    ∃ i, i < b.children.length ∧ next.selected = some i

/-- A commit keeps the links and the input world of a block. -/
theorem keeps_of_commit {b next : Block} {content : String} {batch : List Operation}
    {outcomes : List Outcome} (h : b.commit content batch = (next, outcomes)) : b.Keeps next := by
  rcases b.commit_cases content batch with ⟨w, -, hc⟩ | ⟨-, hc⟩ <;> rw [hc] at h <;> cases h <;>
    exact ⟨rfl, rfl, rfl, rfl, .inl rfl⟩

end BranchingStory.Block
