import BranchingStory.Proofs.Merge.Merged
import BranchingStory.Proofs.Story.Queue

/-!
# Merging loses neither side

A completion that does not block merges what the generator and the user have done since the block
was created. Each entity that one side alone has addressed is as that side left it, and where both
have created one, the generator's stands under the old name and the user's under the new one.
-/

namespace BranchingStory

namespace Story

variable {Memory : Type} {s : Story Memory}

/-- In every run, a loading block whose generator succeeds on the input world with a batch that
blocks with nothing, where no renamed target is live and the generator only modifies the other
entities that both sides address, not their marks of destruction, becomes idle with every merged
operation successful. In its world each name that only the generator addresses holds what the
generator alone leaves, each name that only the user addresses holds what the scratch world holds,
and of each renamed target the old name holds what the generator alone leaves and the new name the
entity of the scratch world, with the new id. -/
theorem Reachable.merge_keeps_both (h : s.Reachable) {id : BlockId} {b : Block} {scratch : World}
    {queue : List Operation} {d : Block.Delivery} (hb : s.get id = .ok b)
    (hphase : b.phase = .loading scratch queue) (hsuccess : d.success = true)
    (hgenerated : Outcome.allSucceeded (b.input.apply d.operations).2 = true) :
    let report := (Merge.detect s.renamer b.input d.operations queue s.memory).1
    let own := (b.input.apply d.operations).1
    report.conflict = none →
    (∀ r ∈ report.renamed, b.input.contains r.1 = false) →
    (∀ g ∈ d.operations, g.target ∉ report.renamed.map Prod.fst →
      (∃ e ∈ queue, e.target = g.target) →
      ∃ key, g.modifyKey? = some key ∧
        Text.sameLetters CoreAttribute.destroyed.key key = false) →
    ∃ t next w, s.complete id d = .ok (t, .moved ⟨id, .loading, .idle,
        report.merged.map fun op => ⟨op, none⟩⟩) ∧
      t.get id = .ok next ∧ next.phase = .idle (some w) w ∧
      (∀ g ∈ d.operations, (∀ e ∈ report.edited, e.target ≠ g.target) →
        w.stored? g.target = own.stored? g.target) ∧
      (∀ e ∈ queue, (∀ g ∈ d.operations, g.target ≠ e.target) →
        w.stored? e.target = scratch.stored? e.target) ∧
      ∀ r ∈ report.renamed, w.stored? r.1 = own.stored? r.1 ∧
        ∃ e, scratch.stored? r.1 = some e ∧
          w.stored? (Merge.newName r) = some { e with name := { e.name with id := r.2 } } := by
  intro report own hconflict hdead hmodify
  obtain ⟨hid, hexplained⟩ := h.explained id b hb
  have hscratch : b.input.Leads queue scratch := hexplained.fits hphase
  have hown : b.input.Leads d.operations own := World.leads_iff.2 ⟨hgenerated, rfl⟩
  have hreport : report.Describes b.input d.operations queue :=
    Merge.describes_detect s.renamer hexplained.input d.operations queue s.memory
  have hmerged := hreport.leads_merged hown hscratch hconflict hdead fun g hg hold hboth => by
    obtain ⟨key, hk, hkey⟩ := hmodify g hg hold hboth
    exact ⟨key, hk, CoreAttribute.ofKey?_ne_destroyed hkey⟩
  obtain ⟨t, next, hcomplete, hnext, hidle⟩ :=
    complete_of_leads hb hid hphase hsuccess rfl hconflict hmerged
  refine ⟨t, next, _, hcomplete, hnext, hidle, fun g hg hedited => ?_, fun e he hgen => ?_,
    fun r hr => ⟨?_, ?_⟩⟩
  · exact (hmerged.slot g.target).unique (hreport.slot_of_generated hown hedited)
  · refine (hmerged.slot e.target).unique (hreport.slot_of_edited hscratch hgen fun r hr => ?_)
    exact hreport.target_ne_newName r hr e (List.mem_append_right _ he)
  · exact (hmerged.slot r.1).unique
      (hreport.slot_of_generated hown (hreport.target_ne_of_renamed hr))
  · obtain ⟨e, he⟩ := hreport.exists_scratch hscratch hr
    have hbuilt : scratch.Built := (World.leads_iff.1 hscratch).2 ▸ hexplained.input.apply queue
    have hname : e.name = r.1 := hbuilt.keepsNames r.1 e he
    have hstored := (hmerged.slot (Merge.newName r)).unique
      (hreport.slot_of_newName hscratch hr (hdead r hr))
    refine ⟨e, he, ?_⟩
    rw [hstored, he, hname]
    rfl

/-- Both sides create a sword and modify the hero, and the generator creates a place as well. -/
theorem Reachable.merge_keeps_two_swords :
    let sword : EntityId := ⟨.item, "sword"⟩
    let second : EntityId := ⟨.item, "sword_user_created_1"⟩
    let hero : EntityId := ⟨.character, "hero"⟩
    let queue : List Operation := [.create sword [], .modify sword "owner" .equal (.text "user"),
      .modify hero "title" .equal (.text "Sir")]
    let d : Block.Delivery := ⟨true, "text", [.create sword [], .modify hero "hp" .equal (.int 7),
      .create ⟨.place, "cave"⟩ []], []⟩
    let input := (World.empty.apply [.create hero []]).1
    let scratch := (input.apply queue).1
    let b := { (Block.root Config.default.rootId).child input "b" "now" [] with
      phase := .loading scratch queue }
    let s := (((Story.new Config.default Config.default.sequentialRenamer 1).after
      (.submit Config.default.rootId [.create hero []])).after
      (.createChild none "b" "now" [])).after (.submit "b" queue)
    let report := (Merge.detect s.renamer b.input d.operations queue s.memory).1
    s.Reachable ∧ s.get "b" = .ok b ∧ Outcome.allSucceeded (b.input.apply d.operations).2 = true ∧
      report.conflict = none ∧ report.renamed = [(sword, second.id)] ∧
      ∃ t next w, s.complete "b" d = .ok (t, .moved ⟨"b", .loading, .idle,
          report.merged.map fun op => ⟨op, none⟩⟩) ∧
        t.get "b" = .ok next ∧ next.phase = .idle (some w) w ∧
        w.stored? sword = some ⟨sword, [], false⟩ ∧
        w.stored? second = some ⟨second, [("owner", .text "user")], false⟩ := by
  intro sword second hero queue d input scratch b s report
  have hs : s.Reachable := (((Reachable.new _ _ _).call _).call _).call _
  have hb : s.get "b" = .ok b := by
    subst s b scratch input queue hero sword
    rfl
  have hgenerated : Outcome.allSucceeded (b.input.apply d.operations).2 = true := by
    subst b scratch input queue d hero sword
    rfl
  have hconflict : report.conflict = none := by
    subst report s b scratch input queue d hero sword
    rfl
  have hrenamed : report.renamed = [(sword, second.id)] := by
    subst report s b scratch input queue d hero second sword
    rfl
  have hdead : ∀ r ∈ report.renamed, b.input.contains r.1 = false := by
    rw [hrenamed]
    intro r hr
    obtain rfl := List.mem_singleton.1 hr
    subst b scratch input queue hero second sword
    rfl
  have hmodify : ∀ g ∈ d.operations, g.target ∉ report.renamed.map Prod.fst →
      (∃ e ∈ queue, e.target = g.target) → ∃ key, g.modifyKey? = some key ∧
        Text.sameLetters CoreAttribute.destroyed.key key = false := by
    rw [hrenamed]
    intro g hg hold ⟨e, he, ht⟩
    simp only [d, List.mem_cons, List.not_mem_nil, or_false] at hg
    rcases hg with rfl | rfl | rfl
    · exact absurd (List.mem_singleton_self sword) hold
    · exact ⟨"hp", rfl, by decide⟩
    · simp only [queue, List.mem_cons, List.not_mem_nil, or_false] at he
      rcases he with rfl | rfl | rfl <;> cases ht
  obtain ⟨t, next, w, hcomplete, hnext, hidle, -, -, hkept⟩ :=
    hs.merge_keeps_both hb rfl rfl hgenerated hconflict hdead hmodify
  obtain ⟨hsword, e, he, hsecond⟩ := hkept (sword, second.id) (hrenamed ▸ List.mem_singleton_self _)
  refine ⟨hs, hb, hgenerated, hconflict, hrenamed, t, next, w, hcomplete, hnext, hidle, ?_, ?_⟩
  · rw [hsword]
    subst b scratch input queue d hero sword
    rfl
  · have hseen : scratch.stored? sword = some ⟨sword, [("owner", .text "user")], false⟩ := by
      subst b scratch input queue d hero sword
      rfl
    obtain rfl := Option.some.inj (hseen.symm.trans he)
    exact hsecond

end Story

end BranchingStory
