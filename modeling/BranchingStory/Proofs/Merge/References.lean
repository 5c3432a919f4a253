import BranchingStory.Proofs.Merge.Renaming
import BranchingStory.Proofs.Value.RoundTrip
import BranchingStory.Proofs.World.Slot

/-!
# References to renamed entities

Renaming moves the user's operations to the new name and leaves what they hold as it is. So no
operation of the user's targets a renamed entity any more, while the references to it in operands
and initial attributes stay. The old name is the generator's alone in the merged batch, and it is
the generator's entity that they refer to.
-/

namespace BranchingStory

namespace Operation

/-- The values that an operation brings: the initial attributes or the operand. -/
def values : Operation → List Value
  | create _ attributes => attributes.map Prod.snd
  | modify _ _ _ v => [v]
  | delete _ => []

/-- The operation refers to an entity in its values, at any depth. -/
def RefersTo (op : Operation) (name : EntityId) : Prop :=
  ∃ v ∈ op.values, Value.ref name ∈ v.parts

/-- Moving an operation keeps its values. -/
@[simp] theorem values_retarget (id : String) (op : Operation) :
    (op.retarget id).values = op.values := by cases op <;> rfl

/-- Following its target an operation keeps its values. -/
@[simp] theorem values_follow (renamed : List (EntityId × String)) (op : Operation) :
    (Merge.follow renamed op).values = op.values := by
  unfold Merge.follow
  split
  · exact values_retarget _ op
  · rfl

end Operation

namespace Merge

section Report

variable {Memory : Type} {renamer : Renamer Memory} {world : World}
  {generated edited : List Operation} {memory : Memory} {r : EntityId × String}

/-- No user operation that follows its target addresses a renamed one, in any world. -/
theorem target_ne_of_mem_renamed
    (hr : r ∈ (detect renamer world generated edited memory).1.renamed) :
    ∀ e ∈ (detect renamer world generated edited memory).1.edited, e.target ≠ r.1 := by
  intro e he
  rw [edited_detect] at he
  obtain ⟨op, -, rfl⟩ := List.mem_map.1 he
  have htarget := List.mem_map_of_mem (f := Prod.fst) hr
  obtain ⟨⟨g, hg, -, hgt⟩, -⟩ :=
    (mem_renamed_detect_iff renamer world generated edited memory r.1).1 htarget
  refine target_follow_ne (nodup_renamed_detect renamer world generated edited memory) htarget
    (fun s hs => ?_) op
  rw [← hgt]
  exact target_ne_newName hs (List.mem_append_left _ hg)

/-- Under a renamed target the merged batch leaves what the generator's operations alone leave. -/
theorem stored?_merged_of_mem_renamed
    (hr : r ∈ (detect renamer world generated edited memory).1.renamed) :
    (world.apply (detect renamer world generated edited memory).1.merged).1.stored? r.1 =
      (world.apply generated).1.stored? r.1 := by
  rw [World.stored?_apply, World.stored?_apply,
    Report.filter_merged_of_edited (target_ne_of_mem_renamed hr), generated_detect]

end Report

/-- In any two batches no operation of the user's targets a renamed entity any more, and what the
merged batch leaves under its name is what the generator's operations alone leave. But in its place
each operation of the user's holds the same values as before, so it refers to the same entities, at
any depth. -/
theorem detect_references {Memory : Type} (renamer : Renamer Memory) (world : World)
    (generated edited : List Operation) (memory : Memory) :
    let report := (detect renamer world generated edited memory).1
    (∀ r ∈ report.renamed, (∀ e ∈ report.edited, e.target ≠ r.1) ∧
      (world.apply report.merged).1.stored? r.1 = (world.apply generated).1.stored? r.1) ∧
    ∀ (i : Nat) (e op : Operation), report.edited[i]? = some e → edited[i]? = some op →
      e.values = op.values ∧ ∀ name, e.RefersTo name ↔ op.RefersTo name := by
  intro report
  refine ⟨fun r hr => ⟨target_ne_of_mem_renamed hr, stored?_merged_of_mem_renamed hr⟩,
    fun i e op he hop => ?_⟩
  have hfollow : e = follow report.renamed op := by
    rw [edited_detect, List.getElem?_map, hop] at he
    exact (Option.some.inj he).symm
  have hvalues : e.values = op.values := by rw [hfollow, Operation.values_follow]
  exact ⟨hvalues, fun name => by rw [Operation.RefersTo, Operation.RefersTo, hvalues]⟩

/-- Both sides create a sword, and in the user's batch a hero of the input world carries it. -/
theorem detect_references_bag :
    let sword : EntityId := ⟨.item, "sword"⟩
    let second : EntityId := ⟨.item, "sword_1"⟩
    let hero : EntityId := ⟨.character, "hero"⟩
    let pack : Operation :=
      .modify hero "bag" .equal (.list [.map [("first", .ref sword), ("count", .int 1)]])
    let world := (World.empty.apply [.create hero []]).1
    let generated : List Operation := [.create sword [("edge", .text "sharp")]]
    let report := (detect (.sequential "_") world generated [.create sword [], pack] 1).1
    report.renamed = [(sword, second.id)] ∧ (∀ e ∈ report.edited, e.target ≠ sword) ∧
      (∃ e, report.edited[1]? = some e ∧ e.RefersTo sword ∧ ¬ e.RefersTo second) ∧
      (world.apply report.merged).1.stored? sword =
        some ⟨sword, [("edge", .text "sharp")], false⟩ := by
  intro sword second hero pack world generated report
  have hrenamed : report.renamed = [(sword, second.id)] := by
    subst report generated world pack hero second sword
    rfl
  have hpack : ∃ e, report.edited[1]? = some e := by
    subst report generated world pack hero second sword
    exact ⟨_, rfl⟩
  have hrefers : pack.RefersTo sword :=
    ⟨_, List.mem_singleton_self _, by simp [Value.parts, Value.itemParts, Value.entryParts]⟩
  have hother : ¬ pack.RefersTo second := by
    simp [Operation.RefersTo, pack, Operation.values, Value.parts, Value.itemParts,
      Value.entryParts, sword, second]
  obtain ⟨htargets, hrefs⟩ := detect_references (.sequential "_") world generated
    [.create sword [], pack] 1
  obtain ⟨hnone, hstored⟩ := htargets (sword, second.id) (hrenamed ▸ List.mem_singleton_self _)
  obtain ⟨e, he⟩ := hpack
  obtain ⟨-, hsame⟩ := hrefs 1 e pack he rfl
  refine ⟨hrenamed, hnone, ⟨e, he, (hsame sword).2 hrefers, fun h => hother ((hsame second).1 h)⟩,
    hstored.trans ?_⟩
  subst report generated world pack hero second sword
  rfl

/-- The user creates a sword and a hero who has it in the bag, and the generator creates a sword of
the same name. The user's sword is renamed, so what the hero has is the generator's. -/
theorem reference_to_generated :
    let sword : EntityId := ⟨.item, "sword"⟩
    let second : EntityId := ⟨.item, "sword_user_created_1"⟩
    let hero : EntityId := ⟨.character, "hero"⟩
    let owned (owner : String) : Entries Value := [("owner", .text owner)]
    let report := (detect (.sequential "_user_created_") World.empty
      [.create sword (owned "generator")]
      [.create sword (owned "user"), .create hero [("bag", .list [.ref sword])]] 1).1
    let world := (World.empty.apply report.merged).1
    report.conflict = none ∧ report.renamed = [(sword, second.id)] ∧
      (∃ e ∈ report.edited, e.RefersTo sword) ∧
      world.stored? hero = some ⟨hero, [("bag", .list [.ref sword])], false⟩ ∧
      world.stored? sword = some ⟨sword, owned "generator", false⟩ ∧
      world.stored? second = some ⟨second, owned "user", false⟩ := by
  intro sword second hero owned report world
  have hrefers : (Operation.create hero [("bag", .list [.ref sword])]).RefersTo sword :=
    ⟨_, List.mem_singleton_self _, by simp [Value.parts, Value.itemParts]⟩
  have hmem : Operation.create hero [("bag", .list [.ref sword])] ∈ report.edited :=
    List.mem_cons_of_mem _ (List.mem_singleton_self _)
  refine ⟨?_, ?_, ⟨_, hmem, hrefers⟩, ?_, ?_, ?_⟩ <;>
    subst world report owned hero second sword <;> rfl

end Merge

end BranchingStory
