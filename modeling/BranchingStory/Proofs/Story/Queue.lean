import BranchingStory.Proofs.Merge.Renaming
import BranchingStory.Proofs.Story.Run

/-!
# The queue explains the scratch world

While a block waits for the generator or for the user, its queue holds exactly the operations that
lead from the input world to the scratch world. Failed operations act on the scratch world as well,
but they leave no trace in it and none in the queue. So a generator that delivers no operations ends
in the world that the user has seen.
-/

namespace BranchingStory

/-- What a phase holds fits an input world: the worlds of an idle block come from the empty one, and
the queue of a block that waits leads from the input world to the scratch world. -/
def Phase.Fits (input : World) : Phase → Prop
  | .idle merged current => (∀ w, merged = some w → w.Built) ∧ current.Built
  | .loading scratch queue => input.Leads queue scratch
  | .resolving scratch queue _ _ _ => input.Leads queue scratch
  | .failed _ => True

namespace Block

/-- The input world comes from the empty one, and what the block holds in its phase fits it. -/
structure Explained (b : Block) : Prop where
  /-- The input world comes from the empty one. -/
  input : b.input.Built
  /-- The phase fits the input world. -/
  phase : b.phase.Fits b.input

/-- What an explained block holds in a phase fits its input world. -/
theorem Explained.fits {b : Block} (h : b.Explained) {phase : Phase} (hphase : b.phase = phase) :
    phase.Fits b.input := hphase ▸ h.phase

/-- The root has only the empty world. -/
theorem Explained.root (id : BlockId) : (Block.root id).Explained :=
  ⟨.empty, fun _ h => Option.some.inj h ▸ .empty, .empty⟩

/-- A commit leaves an explained block. -/
theorem Explained.commit {b next : Block} (h : b.Explained) {content : String}
    {batch : List Operation} {outcomes : List Outcome}
    (hcommit : b.commit content batch = (next, outcomes)) : next.Explained := by
  rcases b.commit_cases content batch with ⟨w, hw, hc⟩ | ⟨-, hc⟩
  · rw [hc] at hcommit
    cases hcommit
    have hbuilt : w.Built := (World.leads_iff.1 hw).2 ▸ h.input.apply batch
    exact ⟨h.input, fun v hv => Option.some.inj hv ▸ hbuilt, hbuilt⟩
  · rw [hc] at hcommit
    cases hcommit
    exact ⟨h.input, trivial⟩

/-- A step leaves an explained block. -/
theorem Explained.step {b next : Block} {call : Call} {answer : Answer} (h : b.Explained)
    (hstep : b.Step call next answer) : next.Explained := by
  cases hstep with
  | submit id ops hs =>
    rcases submit?_cases hs with ⟨merged, current, hphase, -, rfl⟩ |
      ⟨scratch, queue, hphase, -, rfl⟩
    · obtain ⟨hmerged, hcurrent⟩ := h.fits hphase
      exact ⟨h.input, hmerged, hcurrent.apply ops⟩
    · have hleads : b.input.Leads queue scratch := h.fits hphase
      exact ⟨h.input, hleads.append (scratch.leads_successful ops)⟩
  | complete id renamer memory delivery hc =>
    obtain ⟨scratch, queue, hphase, hcases⟩ := complete?_cases hc
    rcases hcases with ⟨-, -, rfl⟩ |
      ⟨-, metadata, report, -, -, ⟨-, hcommit⟩ | ⟨conflict, -, -, rfl⟩⟩
    · exact ⟨h.input, trivial⟩
    · have hmeta : Explained { b with metadata } := ⟨h.input, h.phase⟩
      exact hmeta.commit hcommit
    · have hleads : b.input.Leads queue scratch := h.fits hphase
      exact ⟨h.input, hleads⟩
  | resolve id batch hr => exact h.commit (resolve?_cases hr).2
  | details id hidle content metadata => exact ⟨h.input, h.phase⟩
  | settings id settings => exact ⟨h.input, h.phase⟩
  | select id index hs =>
    obtain ⟨-, rfl⟩ := select?_cases hs
    exact ⟨h.input, h.phase⟩

/-- A new child leaves its parent explained. -/
theorem Explained.attach {b : Block} (h : b.Explained) (id : BlockId) (params : Entries Value) :
    (b.attach id params).Explained := ⟨h.input, h.phase⟩

/-- A new child has an empty queue, which leads nowhere. -/
theorem Explained.child {b : Block} (h : b.Explained) {current : World}
    (hsettled : b.settled? = some current) (id : BlockId) (time : String)
    (params : Entries Value) : (b.child current id time params).Explained := by
  obtain ⟨-, hcurrent⟩ := h.fits (phase_of_settled? hsettled)
  exact ⟨hcurrent, World.Leads.nil current⟩

/-- A restored block has only worlds that were recorded. -/
theorem Explained.toBlock {b : Block} (h : b.Explained) : b.record.toBlock.Explained := by
  refine ⟨h.input, ?_⟩
  simp only [record, BlockRecord.toBlock, merged?, settled?]
  cases hphase : b.phase with
  | idle merged current => exact h.fits hphase
  | _ => exact ⟨by simp, h.input⟩

/-- What is seen of a block that waits is in its phase. -/
theorem Explained.leads {b : Block} (h : b.Explained) {scratch : World}
    (hscratch : b.scratch? = some scratch) : b.input.Leads b.queue scratch := by
  unfold scratch? at hscratch
  unfold queue
  split at hscratch
  · next s queue hphase =>
    cases hscratch
    exact h.fits hphase
  · next s queue generated edited conflict hphase =>
    cases hscratch
    exact h.fits hphase
  · cases hscratch

end Block

namespace Story

variable {Memory : Type} {s : Story Memory}

/-- In every run each block is explained. -/
theorem Reachable.explained (h : s.Reachable) : s.Holds Block.Explained :=
  h.holds Block.Explained.root (fun hb hstep => hb.step hstep)
    (fun id params hb _ => hb.attach id params)
    (fun id time params hb hsettled => hb.child hsettled id time params) fun hb => hb.toBlock

/-- In every run, the whole queue of a block that waits succeeds in its input world and leads
exactly to its scratch world. So a loading block that the generator completes without operations
becomes idle on its scratch world, and no operation fails. -/
theorem Reachable.queue_explains (h : s.Reachable) {id : BlockId} {b : Block}
    (hb : s.get id = .ok b) :
    ((b.status = .loading ∨ b.status = .resolvingConflict) →
      ∃ scratch, b.scratch? = some scratch ∧
        b.input.apply b.queue = (scratch, b.queue.map fun op => ⟨op, none⟩)) ∧
    (b.status = .loading → ∀ d : Block.Delivery, d.success = true → d.operations = [] →
      ∃ t next, s.complete id d = .ok (t, .moved ⟨id, .loading, .idle,
          b.queue.map fun op => ⟨op, none⟩⟩) ∧
        t.get id = .ok next ∧ next.status = .idle ∧ next.current? = b.scratch?) := by
  obtain ⟨hid, hexplained⟩ := h.explained id b hb
  refine ⟨fun hstatus => ?_, fun hstatus d hsuccess hops => ?_⟩
  · have hscratch : ∃ scratch, b.scratch? = some scratch := by
      unfold Block.scratch?
      cases hphase : b.phase <;> simp_all [Block.status, Phase.status]
    obtain ⟨scratch, hscratch⟩ := hscratch
    exact ⟨scratch, hscratch, hexplained.leads hscratch⟩
  · obtain ⟨scratch, queue, hphase⟩ : ∃ scratch queue, b.phase = .loading scratch queue := by
      cases hphase : b.phase <;> simp_all [Block.status, Phase.status]
    have hreport : (Merge.detect s.renamer b.input d.operations queue s.memory).1 =
        ⟨[], queue, [], none⟩ := by rw [hops, Merge.detect_nil]
    have hleads : b.input.Leads queue scratch := hexplained.fits hphase
    obtain ⟨t, next, hcomplete, hnext, hidle⟩ :=
      complete_of_leads hb hid hphase hsuccess hreport rfl hleads
    have hqueue : b.queue = queue := by rw [Block.queue, hphase]
    refine ⟨t, next, hqueue ▸ hcomplete, hnext, by rw [Block.status, hidle, Phase.status], ?_⟩
    rw [Block.current?, hidle, Block.scratch?, hphase]

/-- Two submissions that fail in part leave the two operations that succeeded in the queue. -/
theorem Reachable.queue_explains_partly :
    let ghost : Operation := .modify ⟨.item, "ghost"⟩ "hp" .equal (.int 1)
    let hero : Operation := .create ⟨.character, "hero"⟩ []
    let named : Operation := .modify ⟨.character, "hero"⟩ "name" .equal (.text "Ada")
    let s := (((Story.new Config.default Config.default.sequentialRenamer 1).after
      (.createChild none "b" "now" [])).after (.submit "b" [hero, ghost])).after
      (.submit "b" [hero, named])
    s.Reachable ∧ ∃ b, s.get "b" = .ok b ∧ b.status = .loading ∧ b.queue = [hero, named] ∧
      ∃ t next, s.complete "b" ⟨true, "text", [], []⟩ = .ok (t, .moved ⟨"b", .loading, .idle,
          [⟨hero, none⟩, ⟨named, none⟩]⟩) ∧
        t.get "b" = .ok next ∧ next.status = .idle ∧ next.current? = b.scratch? := by
  intro ghost hero named s
  have hs : s.Reachable := (((Reachable.new _ _ _).call _).call _).call _
  have hqueue : (s.get "b").map Block.queue = .ok [hero, named] := by
    subst s named hero ghost
    rfl
  have hstatus : s.status "b" = .ok .loading := by
    subst s named hero ghost
    rfl
  rw [status] at hstatus
  cases hb : s.get "b" with
  | error e =>
    rw [hb] at hqueue
    cases hqueue
  | ok b =>
    rw [hb] at hqueue hstatus
    have hq : b.queue = [hero, named] := Except.ok.inj hqueue
    have hl : b.status = .loading := Except.ok.inj hstatus
    obtain ⟨t, next, hcomplete, hnext⟩ := (hs.queue_explains hb).2 hl ⟨true, "text", [], []⟩ rfl rfl
    rw [hq] at hcomplete
    exact ⟨hs, b, rfl, hl, hq, t, next, hcomplete, hnext⟩

end Story

end BranchingStory
