import BranchingStory.Proofs.Merge.Merged
import BranchingStory.Proofs.Story.Queue

/-!
# The edits that follow a renamed entity

The queue was accepted under the old name, where an entity of the input world may have stood. Under
the new name nothing is live until the user creates the entity. From then on both names hold the
same, so of the operations that follow a renamed entity exactly those fail that modify what stood
under the old name before the user created it anew.
-/

namespace BranchingStory

namespace Merge.Report.Describes

variable {report : Report} {world scratch : World} {generated before after : List Operation}
  {op : Operation} {id : String}

/-- An operation that follows its target has in the merged batch the outcome that it has after the
user's operations on that target before it, all of them moved to the new name. -/
theorem getElem?_apply_merged (h : report.Describes world generated (before ++ op :: after))
    (hid : (op.target, id) ∈ report.renamed) :
    (world.apply report.merged).2[generated.length + before.length]? =
      some (Slot.applyOne (Slot.apply (world.stored? { op.target with id })
        ((before.filter fun e => e.target = op.target).map (Operation.retarget id))).1
          (op.retarget id)).2 := by
  have hmerged : report.merged = (generated ++ before.map (follow report.renamed)) ++
      op.retarget id :: after.map (follow report.renamed) := by
    rw [Report.merged, h.generated_eq, h.edited_eq, List.map_append, List.map_cons,
      follow_of_nodup h.nodup_renamed hid, List.append_assoc]
  have hlength : generated.length + before.length =
      (generated ++ before.map (follow report.renamed)).length := by
    rw [List.length_append, List.length_map]
  -- The generator has done nothing under the new name.
  have hnew : (generated ++ before.map (follow report.renamed)).filter
      (fun e => e.target = { op.target with id }) =
        (before.filter fun e => e.target = op.target).map (Operation.retarget id) := by
    rw [List.filter_append]
    exact (congrArg₂ _ (h.filter_generated_newName hid)
      (h.filter_follow_newName hid (List.subset_append_left _ _))).trans (List.nil_append _)
  rw [hmerged, hlength, World.getElem?_apply, World.outcome_applyOne, Operation.target_retarget,
    World.stored?_apply, hnew]

/-- An operation that the user has seen succeed on a renamed target succeeds under the new name, if
it is no modification or the user has created the entity before. -/
theorem outcome_of_renamed (h : report.Describes world generated (before ++ op :: after))
    (hscratch : world.Leads (before ++ op :: after) scratch)
    (hid : (op.target, id) ∈ report.renamed)
    (hop : op.modifyKey? = none ∨ ∃ c ∈ before, c.isCreate = true ∧ c.target = op.target) :
    (world.apply report.merged).2[generated.length + before.length]? =
      some ⟨op.retarget id, none⟩ := by
  obtain ⟨next, last, hbefore, hstep⟩ := hscratch.exists_step
  rw [h.getElem?_apply_merged hid]
  refine congrArg some (hbefore.applyOne_retarget hstep
    (World.live?_eq_none_iff.2 (h.contains_newName _ hid))
    (fun e he => of_decide_eq_true (List.mem_filter.1 he).2) (hop.imp_right ?_) id)
  rintro ⟨c, hc, hcreate, ht⟩
  exact ⟨c, List.mem_filter.2 ⟨hc, decide_eq_true ht⟩, hcreate⟩

/-- A modification that the user has seen succeed on a renamed target, without having created the
entity before, has found it in the input world. Under the new name nothing is found for it. -/
theorem outcome_of_renamed_modification
    (h : report.Describes world generated (before ++ op :: after))
    (hscratch : world.Leads (before ++ op :: after) scratch)
    (hid : (op.target, id) ∈ report.renamed) (hop : op.modifyKey? ≠ none)
    (hcreate : ∀ c ∈ before, c.isCreate = true → c.target ≠ op.target) :
    (world.apply report.merged).2[generated.length + before.length]? =
        some ⟨op.retarget id, some (.notFound { op.target with id })⟩ ∧
      world.contains op.target = true := by
  obtain ⟨next, last, hbefore, hstep⟩ := hscratch.exists_step
  obtain ⟨houtcome, hlive⟩ := hbefore.applyOne_retarget_of_modify hstep
    (World.live?_eq_none_iff.2 (h.contains_newName _ hid)) hop (fun c hc =>
      Bool.eq_false_iff.2 fun hcc => hcreate c (List.mem_filter.1 hc).1 hcc
        (of_decide_eq_true (List.mem_filter.1 hc).2)) id
  rw [h.getElem?_apply_merged hid]
  exact ⟨congrArg some houtcome, hlive⟩

end Merge.Report.Describes

namespace Story

variable {Memory : Type} {s : Story Memory}

/-- In every run, whatever the generator delivers to a loading block, an operation of the queue on a
renamed target succeeds under the new id in the merged batch, unless it modifies the entity and no
operation before it in the queue creates one. Such a modification is accepted only where the entity
is live in the input world, and under the new id nothing is found for it. -/
theorem Reachable.renamed_edits_apply (h : s.Reachable) {id : BlockId} {b : Block} {scratch : World}
    {queue : List Operation} (hb : s.get id = .ok b) (hphase : b.phase = .loading scratch queue)
    (generated : List Operation) :
    let report := (Merge.detect s.renamer b.input generated queue s.memory).1
    ∀ before op after newId, queue = before ++ op :: after →
      (op.target, newId) ∈ report.renamed →
      ((op.modifyKey? = none ∨ ∃ c ∈ before, c.isCreate = true ∧ c.target = op.target) →
        (b.input.apply report.merged).2[generated.length + before.length]? =
          some ⟨op.retarget newId, none⟩) ∧
      (op.modifyKey? ≠ none → (∀ c ∈ before, c.isCreate = true → c.target ≠ op.target) →
        (b.input.apply report.merged).2[generated.length + before.length]? =
            some ⟨op.retarget newId, some (.notFound { op.target with id := newId })⟩ ∧
          b.input.contains op.target = true) := by
  rintro report before op after newId rfl hid
  obtain ⟨-, hexplained⟩ := h.explained id b hb
  have hreport : report.Describes b.input generated (before ++ op :: after) :=
    Merge.describes_detect s.renamer hexplained.input generated _ s.memory
  have hscratch : b.input.Leads (before ++ op :: after) scratch := hexplained.fits hphase
  exact ⟨hreport.outcome_of_renamed hscratch hid,
    hreport.outcome_of_renamed_modification hscratch hid⟩

/-- Both sides delete the sword and create another one, and the user modifies both of them. Under the
new id the modification of the first sword fails and everything after it succeeds. -/
theorem Reachable.renamed_edits_apply_anew :
    let sword : EntityId := ⟨.item, "sword"⟩
    let newId := "sword_user_created_1"
    let lend : Operation := .modify sword "owner" .equal (.text "user")
    let forge : Operation := .create sword []
    let queue : List Operation := [lend, .delete sword, forge, lend]
    let generated : List Operation := [.delete sword, forge]
    let s := (((Story.new Config.default Config.default.sequentialRenamer 1).after
      (.submit Config.default.rootId [forge])).after (.createChild none "b" "now" [])).after
      (.submit "b" queue)
    s.Reachable ∧ ∃ b scratch, s.get "b" = .ok b ∧ b.phase = .loading scratch queue ∧
      let report := (Merge.detect s.renamer b.input generated queue s.memory).1
      let outcomes := (b.input.apply report.merged).2
      report.renamed = [(sword, newId)] ∧ b.input.contains sword = true ∧
        outcomes[2]? = some ⟨lend.retarget newId, some (.notFound ⟨.item, newId⟩)⟩ ∧
        outcomes[3]? = some ⟨.delete ⟨.item, newId⟩, none⟩ ∧
        outcomes[4]? = some ⟨.create ⟨.item, newId⟩ [], none⟩ ∧
        outcomes[5]? = some ⟨lend.retarget newId, none⟩ := by
  intro sword newId lend forge queue generated s
  let input := (World.empty.apply [forge]).1
  let b := { (Block.root Config.default.rootId).child input "b" "now" [] with
    phase := .loading (input.apply queue).1 queue }
  have hs : s.Reachable := (((Reachable.new _ _ _).call _).call _).call _
  have hb : s.get "b" = .ok b := by
    subst b input s generated queue forge lend sword
    rfl
  have hrenamed : (Merge.detect s.renamer b.input generated queue s.memory).1.renamed =
      [(sword, newId)] := by
    subst b input s generated queue forge lend newId sword
    rfl
  have hid : (sword, newId) ∈
      (Merge.detect s.renamer b.input generated queue s.memory).1.renamed :=
    hrenamed ▸ List.mem_singleton_self _
  have hedits := hs.renamed_edits_apply hb rfl generated
  obtain ⟨hlend, hlive⟩ := (hedits [] lend [.delete sword, forge, lend] newId rfl hid).2
    (Option.some_ne_none _) (by simp)
  refine ⟨hs, b, (input.apply queue).1, hb, rfl, hrenamed, hlive, hlend, ?_, ?_, ?_⟩
  · exact (hedits [lend] (.delete sword) [forge, lend] newId rfl hid).1 (.inl rfl)
  · exact (hedits [lend, .delete sword] forge [lend] newId rfl hid).1 (.inl rfl)
  · exact (hedits [lend, .delete sword, forge] lend [] newId rfl hid).1
      (.inr ⟨forge, by simp, rfl, rfl⟩)

/-- The user modifies a sword, deletes it and creates another one, and the generator replaces the
sword as well. The generator's batch succeeds and nothing blocks, but the first edit of the queue is
looked for under the new id, and so the block fails. -/
theorem Reachable.edit_lost_by_renaming :
    let sword : EntityId := ⟨.item, "sword"⟩
    let second : EntityId := ⟨.item, "sword_user_created_1"⟩
    let lend (target : EntityId) : Operation := .modify target "owner" .equal (.text "user")
    let queue : List Operation := [lend sword, .delete sword, .create sword []]
    let d : Block.Delivery := ⟨true, "text", [.delete sword, .create sword []], []⟩
    let s := (((Story.new Config.default Config.default.sequentialRenamer 1).after
      (.submit Config.default.rootId [.create sword []])).after
      (.createChild none "b" "now" [])).after (.submit "b" queue)
    s.Reachable ∧ ∃ b scratch, s.get "b" = .ok b ∧ b.phase = .loading scratch queue ∧
      let report := (Merge.detect s.renamer b.input d.operations queue s.memory).1
      Outcome.allSucceeded (b.input.apply d.operations).2 = true ∧ report.conflict = none ∧
        report.renamed = [(sword, second.id)] ∧
        (b.input.apply report.merged).2[2]? = some ⟨lend second, some (.notFound second)⟩ ∧
        (s.complete "b" d).map Prod.snd = .ok (.moved ⟨"b", .loading, .error,
          [⟨.delete sword, none⟩, ⟨.create sword [], none⟩, ⟨lend second, some (.notFound second)⟩,
            ⟨.delete second, none⟩, ⟨.create second [], none⟩]⟩) := by
  intro sword second lend queue d s
  let input := (World.empty.apply [.create sword []]).1
  let b := { (Block.root Config.default.rootId).child input "b" "now" [] with
    phase := .loading (input.apply queue).1 queue }
  have hs : s.Reachable := (((Reachable.new _ _ _).call _).call _).call _
  refine ⟨hs, b, (input.apply queue).1, ?_, rfl, ?_, ?_, ?_, ?_, ?_⟩ <;>
    subst b input s d queue lend second sword <;> rfl

end Story

end BranchingStory
