import BranchingStory.Proofs.Merge.Conflicts
import BranchingStory.Proofs.World.Agreement
import BranchingStory.Proofs.World.Moved

/-!
# The merged batch under each name

Under a name that only one side addresses the merged batch is the batch of that side. A renamed
target is left to the generator, and under its new name stand the user's operations on it. What
remains are the names that both sides address as they are. If the generator only modifies the
entities of these, and not their mark of destruction, nothing that succeeded on one side alone fails
in the merged batch.
-/

namespace BranchingStory.Merge

/-- What is known of the report on two batches that are to be merged in a world. -/
structure Report.Describes (report : Report) (world : World) (generated edited : List Operation) :
    Prop where
  /-- The generator's operations are left as they are. -/
  generated_eq : report.generated = generated
  /-- The user's operations follow the renamed targets. -/
  edited_eq : report.edited = edited.map (follow report.renamed)
  /-- The renamed targets are those that both batches create. -/
  mem_renamed_iff : ∀ target,
    target ∈ report.renamed.map Prod.fst ↔ BothCreate generated edited target
  /-- No target is renamed twice. -/
  nodup_renamed : (report.renamed.map Prod.fst).Nodup
  /-- No two renamed targets get the same name. -/
  nodup_newName : (report.renamed.map newName).Nodup
  /-- No operation of either batch addresses a new name. -/
  target_ne_newName : ∀ r ∈ report.renamed, ∀ op ∈ generated ++ edited, op.target ≠ newName r
  /-- No live entity is found under a new name. -/
  contains_newName : ∀ r ∈ report.renamed, world.contains (newName r) = false
  /-- Without a conflict no operations of the two sides have a key in common. -/
  sameKey_eq_false : report.conflict = none →
    ∀ g ∈ generated, ∀ e ∈ report.edited, g.sameKey e = false

/-- What is known of a report holds of the one that the batches get in a built world. -/
theorem describes_detect {Memory : Type} (renamer : Renamer Memory) {world : World}
    (hw : world.Built) (generated edited : List Operation) (memory : Memory) :
    (detect renamer world generated edited memory).1.Describes world generated edited where
  generated_eq := rfl
  edited_eq := rfl
  mem_renamed_iff := mem_renamed_detect_iff renamer world generated edited memory
  nodup_renamed := nodup_renamed_detect renamer world generated edited memory
  nodup_newName := nodup_newName_detect renamer world generated edited memory
  target_ne_newName _ hr _ hop := target_ne_newName hr hop
  contains_newName _ hr := contains_newName hw hr
  sameKey_eq_false h _ hg _ he := sameKey_eq_false h hg he

namespace Report.Describes

variable {report : Report} {world own scratch : World} {generated edited : List Operation}
  {r : EntityId × String} {target : EntityId}

/-- A user operation stays where it is or moves from a renamed target to the new name. -/
theorem follow_cases (h : report.Describes world generated edited) (op : Operation) :
    (op.target ∉ report.renamed.map Prod.fst ∧ follow report.renamed op = op) ∨
      ∃ id, (op.target, id) ∈ report.renamed ∧ follow report.renamed op = op.retarget id := by
  by_cases hm : op.target ∈ report.renamed.map Prod.fst
  · obtain ⟨⟨source, id⟩, hs, hsource⟩ := List.mem_map.1 hm
    obtain rfl : source = op.target := hsource
    exact .inr ⟨id, hs, follow_of_nodup h.nodup_renamed hs⟩
  · exact .inl ⟨hm, follow_of_not_mem hm⟩

/-- A user operation moves to a new name exactly if it was on the target that got it. -/
theorem target_follow_eq_newName_iff (h : report.Describes world generated edited)
    (hr : r ∈ report.renamed) {op : Operation} (hop : op ∈ edited) :
    (follow report.renamed op).target = newName r ↔ op.target = r.1 := by
  rcases h.follow_cases op with ⟨hm, hf⟩ | ⟨id, hs, hf⟩
  · rw [hf]
    refine ⟨fun ht => absurd ht ?_, fun ht => absurd (ht ▸ List.mem_map_of_mem hr) hm⟩
    exact h.target_ne_newName r hr op (List.mem_append_right _ hop)
  · rw [hf, Operation.target_retarget]
    refine ⟨fun ht => ?_, fun ht => ?_⟩
    · exact congrArg Prod.fst (List.inj_on_of_nodup_map h.nodup_newName hs hr ht)
    · exact congrArg newName (List.inj_on_of_nodup_map h.nodup_renamed hs hr ht)

/-- No user operation that follows its target addresses a renamed one. -/
theorem target_ne_of_renamed (h : report.Describes world generated edited)
    (hr : r ∈ report.renamed) : ∀ e ∈ report.edited, e.target ≠ r.1 := by
  intro e he
  rw [h.edited_eq] at he
  obtain ⟨op, -, rfl⟩ := List.mem_map.1 he
  have htarget := List.mem_map_of_mem (f := Prod.fst) hr
  obtain ⟨⟨g, hg, -, hgt⟩, -⟩ := (h.mem_renamed_iff r.1).1 htarget
  refine target_follow_ne h.nodup_renamed htarget (fun s hs => ?_) op
  rw [← hgt]
  exact h.target_ne_newName s hs g (List.mem_append_left _ hg)

/-- Of some of the user's operations those under a new name are those on the target that got it. -/
theorem filter_follow_newName (h : report.Describes world generated edited)
    (hr : r ∈ report.renamed) {ops : List Operation} (hops : ops ⊆ edited) :
    (ops.map (follow report.renamed)).filter (fun op => op.target = newName r) =
      (ops.filter fun op => op.target = r.1).map (Operation.retarget r.2) := by
  have hfilter : ops.filter ((fun op => decide (op.target = newName r)) ∘
      follow report.renamed) = ops.filter fun op => op.target = r.1 := by
    refine List.filter_congr fun op hop => ?_
    simp only [Function.comp_apply, h.target_follow_eq_newName_iff hr (hops hop)]
  rw [List.filter_map, hfilter]
  refine List.map_congr_left fun op hop => ?_
  have ht : op.target = r.1 := of_decide_eq_true (List.mem_filter.1 hop).2
  rcases h.follow_cases op with ⟨hm, hf⟩ | ⟨id, hs, hf⟩
  · exact absurd (ht ▸ List.mem_map_of_mem hr) hm
  · rw [hf, ← List.inj_on_of_nodup_map h.nodup_renamed hs hr ht]

/-- The user's operations under a new name are those on the target that got it. -/
theorem filter_edited_newName (h : report.Describes world generated edited)
    (hr : r ∈ report.renamed) :
    report.edited.filter (fun op => op.target = newName r) =
      (edited.filter fun op => op.target = r.1).map (Operation.retarget r.2) := by
  rw [h.edited_eq]
  exact h.filter_follow_newName hr (List.Subset.refl edited)

/-- The generator addresses no new name. -/
theorem filter_generated_newName (h : report.Describes world generated edited)
    (hr : r ∈ report.renamed) : generated.filter (fun op => op.target = newName r) = [] :=
  List.filter_eq_nil_iff.2 fun g hg => by
    simpa using h.target_ne_newName r hr g (List.mem_append_left _ hg)

/-- Under a name that is neither renamed nor new stand the user's operations on it. -/
theorem filter_edited_other (h : report.Describes world generated edited)
    (hold : target ∉ report.renamed.map Prod.fst)
    (hnew : ∀ r ∈ report.renamed, target ≠ newName r) :
    report.edited.filter (fun op => op.target = target) =
      edited.filter fun op => op.target = target := by
  have hfilter : edited.filter ((fun op => decide (op.target = target)) ∘
      follow report.renamed) = edited.filter fun op => op.target = target := by
    refine List.filter_congr fun op _ => ?_
    rw [Function.comp_apply, decide_eq_decide]
    rcases h.follow_cases op with ⟨-, hf⟩ | ⟨id, hs, hf⟩
    · rw [hf]
    · rw [hf, Operation.target_retarget]
      refine ⟨fun ht => absurd ht.symm (hnew _ hs), fun ht => absurd ?_ hold⟩
      exact ht ▸ List.mem_map_of_mem hs
  rw [h.edited_eq, List.filter_map, hfilter]
  refine (List.map_congr_left fun op hop => ?_).trans (List.map_id _)
  have ht : op.target = target := of_decide_eq_true (List.mem_filter.1 hop).2
  exact follow_of_not_mem (ht ▸ hold)

/-- The user has created every renamed entity. -/
theorem exists_scratch (h : report.Describes world generated edited)
    (hscratch : world.Leads edited scratch) (hr : r ∈ report.renamed) :
    ∃ e, scratch.stored? r.1 = some e := by
  obtain ⟨-, op, hop, hcreate, ht⟩ := (h.mem_renamed_iff r.1).1 (List.mem_map_of_mem hr)
  cases hs : scratch.stored? r.1 with
  | some e => exact ⟨e, rfl⟩
  | none =>
    have hslot := hscratch.slot r.1
    rw [hs] at hslot
    have hnot := hslot.of_none.2 op (List.mem_filter.2 ⟨hop, decide_eq_true ht⟩)
    rw [hcreate] at hnot
    cases hnot

/-- The merged batch under a name is the generator's and then the user's. -/
theorem filter_merged (h : report.Describes world generated edited) (target : EntityId) :
    report.merged.filter (fun op => op.target = target) =
      generated.filter (fun op => op.target = target) ++
        report.edited.filter fun op => op.target = target := by
  rw [Report.merged, List.filter_append, h.generated_eq]

/-- Under a name that no followed operation addresses, the merged batch leaves what the generator
alone leaves. -/
theorem slot_of_generated (h : report.Describes world generated edited)
    (hown : world.Leads generated own) (htarget : ∀ e ∈ report.edited, e.target ≠ target) :
    Slot.Leads (world.stored? target) (report.merged.filter fun op => op.target = target)
      (own.stored? target) := by
  rw [Report.filter_merged_of_edited htarget, h.generated_eq]
  exact hown.slot target

/-- Under a name that the generator does not address, new names apart, the merged batch leaves what
the user has seen. -/
theorem slot_of_edited (h : report.Describes world generated edited)
    (hscratch : world.Leads edited scratch) (htarget : ∀ g ∈ generated, g.target ≠ target)
    (hnew : ∀ r ∈ report.renamed, target ≠ newName r) :
    Slot.Leads (world.stored? target) (report.merged.filter fun op => op.target = target)
      (scratch.stored? target) := by
  have hold : target ∉ report.renamed.map Prod.fst := by
    rw [h.mem_renamed_iff]
    rintro ⟨⟨g, hg, -, ht⟩, -⟩
    exact htarget g hg ht
  have hnil : generated.filter (fun op => op.target = target) = [] :=
    List.filter_eq_nil_iff.2 fun g hg => by simpa using htarget g hg
  rw [h.filter_merged, hnil, List.nil_append, h.filter_edited_other hold hnew]
  exact hscratch.slot target

/-- Under a new name the merged batch leaves the entity that the user has seen under the old one. -/
theorem slot_of_newName (h : report.Describes world generated edited)
    (hscratch : world.Leads edited scratch) (hr : r ∈ report.renamed)
    (hdead : world.contains r.1 = false) :
    Slot.Leads (world.stored? (newName r)) (report.merged.filter fun op => op.target = newName r)
      ((scratch.stored? r.1).map (Entity.rename (newName r))) := by
  have hid : r.2 = (newName r).id := rfl
  rw [h.filter_merged, h.filter_generated_newName hr, List.nil_append, h.filter_edited_newName hr,
    hid]
  obtain ⟨-, e, he, hcreate, ht⟩ := (h.mem_renamed_iff r.1).1 (List.mem_map_of_mem hr)
  refine (hscratch.slot r.1).retarget_of_dead (World.live?_eq_none_iff.2 hdead)
    (World.live?_eq_none_iff.2 (h.contains_newName r hr)) (fun op hop => ?_)
    ⟨e, List.mem_filter.2 ⟨he, decide_eq_true ht⟩, hcreate⟩
  have hop : op.target = r.1 := of_decide_eq_true (List.mem_filter.1 hop).2
  rw [hop, newName]

/-- Under a name that both sides address as it is, the merged batch succeeds if the generator only
modifies the entity, and not its mark of destruction. -/
theorem slot_of_modified (h : report.Describes world generated edited)
    (hown : world.Leads generated own) (hscratch : world.Leads edited scratch)
    (hconflict : report.conflict = none) (hold : target ∉ report.renamed.map Prod.fst)
    (hnew : ∀ r ∈ report.renamed, target ≠ newName r)
    (hmodify : ∀ g ∈ generated, g.target = target → ∃ key, g.modifyKey? = some key ∧
      CoreAttribute.ofKey? key ≠ some .destroyed) :
    ∃ last, Slot.Leads (world.stored? target)
      (report.merged.filter fun op => op.target = target) last := by
  have hsecond := hscratch.slot target
  rw [← h.filter_edited_other hold hnew] at hsecond
  have hkeys : ∀ g ∈ generated.filter (fun op => op.target = target),
      ∀ e ∈ report.edited.filter (fun op => op.target = target),
      ∀ key, g.modifyKey? = some key → e.modifyKey? ≠ some key := by
    intro g hg e he key hgk hek
    obtain ⟨hg, hgt⟩ := List.mem_filter.1 hg
    obtain ⟨he, het⟩ := List.mem_filter.1 he
    have hsame : g.sameKey e = true := (Operation.sameKey_iff g e).2
      ⟨(of_decide_eq_true hgt).trans (of_decide_eq_true het).symm, key, hgk, hek⟩
    rw [h.sameKey_eq_false hconflict g hg e he] at hsame
    cases hsame
  obtain ⟨last, hlast⟩ := (hown.slot target).after_modifications hsecond
    (fun g hg => hmodify g (List.mem_filter.1 hg).1
      (of_decide_eq_true (List.mem_filter.1 hg).2)) hkeys
  exact ⟨last, h.filter_merged target ▸ (hown.slot target).append hlast⟩

/-- If nothing blocks, no renamed target is live, and the generator only modifies the other entities
that both sides address, not their marks of destruction, then the merged batch succeeds in full. -/
theorem leads_merged (h : report.Describes world generated edited)
    (hown : world.Leads generated own) (hscratch : world.Leads edited scratch)
    (hconflict : report.conflict = none)
    (hdead : ∀ r ∈ report.renamed, world.contains r.1 = false)
    (hmodify : ∀ g ∈ generated, g.target ∉ report.renamed.map Prod.fst →
      (∃ e ∈ edited, e.target = g.target) → ∃ key, g.modifyKey? = some key ∧
        CoreAttribute.ofKey? key ≠ some .destroyed) :
    world.Leads report.merged (world.apply report.merged).1 := by
  refine World.leads_of_slots fun target => ?_
  by_cases hnew : ∃ r ∈ report.renamed, target = newName r
  · obtain ⟨r, hr, rfl⟩ := hnew
    exact ⟨_, h.slot_of_newName hscratch hr (hdead r hr)⟩
  · have hnew : ∀ r ∈ report.renamed, target ≠ newName r := fun r hr he => hnew ⟨r, hr, he⟩
    by_cases hold : target ∈ report.renamed.map Prod.fst
    · obtain ⟨r, hr, rfl⟩ := List.mem_map.1 hold
      exact ⟨_, h.slot_of_generated hown (h.target_ne_of_renamed hr)⟩
    · by_cases hedited : ∃ e ∈ edited, e.target = target
      · refine h.slot_of_modified hown hscratch hconflict hold hnew fun g hg hgt => ?_
        exact hmodify g hg (hgt ▸ hold) (hgt ▸ hedited)
      · refine ⟨_, h.slot_of_generated hown fun e he ht => hedited ?_⟩
        have hm : e ∈ report.edited.filter fun op => op.target = target :=
          List.mem_filter.2 ⟨he, decide_eq_true ht⟩
        rw [h.filter_edited_other hold hnew] at hm
        exact ⟨e, (List.mem_filter.1 hm).1, ht⟩

end Report.Describes

end BranchingStory.Merge
