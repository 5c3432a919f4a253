import BranchingStory.Proofs.Merge.Conflicts
import BranchingStory.Proofs.World.Commuting

/-!
# Sides that do not block go in either order

The generator's operations come first in a merged batch. Where the report has no conflict and both
sides only modify the entities that both address, not their marks of destruction, this choice makes
no difference: the two sides are independent batches.
-/

namespace BranchingStory.Merge

/-- Sides that do not block, and only modify what both address, are independent. -/
theorem independent_of_conflict_eq_none {Memory : Type} {renamer : Renamer Memory} {world : World}
    {generated edited : List Operation} {memory : Memory}
    (hconflict : (detect renamer world generated edited memory).1.conflict = none)
    (hmodify : ∀ op ∈ generated ++ (detect renamer world generated edited memory).1.edited,
      (∃ g ∈ generated, g.target = op.target) →
      (∃ e ∈ (detect renamer world generated edited memory).1.edited, e.target = op.target) →
      ∃ key, op.modifyKey? = some key ∧
        Text.sameLetters CoreAttribute.destroyed.key key = false) :
    Operation.Independent generated (detect renamer world generated edited memory).1.edited := by
  refine ⟨fun g hg hedited => ?_, fun e he hgenerated => ?_, fun g hg e he ht key hgk hek => ?_⟩
  · obtain ⟨key, hk, hkey⟩ := hmodify g (List.mem_append_left _ hg) ⟨g, hg, rfl⟩ hedited
    exact ⟨key, hk, CoreAttribute.ofKey?_ne_destroyed hkey⟩
  · obtain ⟨key, hk, hkey⟩ := hmodify e (List.mem_append_right _ he) hgenerated ⟨e, he, rfl⟩
    exact ⟨key, hk, CoreAttribute.ofKey?_ne_destroyed hkey⟩
  · have hsame : g.sameKey e = true := (Operation.sameKey_iff g e).2 ⟨ht, key, hgk, hek⟩
    rw [sameKey_eq_false hconflict hg he] at hsame
    cases hsame

/-- When the report on two sides has no conflict, and every operation on a target that both sides
address modifies an attribute other than the mark of destruction, then the two orders of the sides
give every operation the same outcome, the one that it has on its side alone, and lead to worlds
that are alike: the same entities with the same marks and the same value at every key. -/
theorem either_order {Memory : Type} (renamer : Renamer Memory) (world : World)
    (generated edited : List Operation) (memory : Memory) :
    let report := (detect renamer world generated edited memory).1
    report.conflict = none →
    (∀ op ∈ generated ++ report.edited, (∃ g ∈ generated, g.target = op.target) →
      (∃ e ∈ report.edited, e.target = op.target) →
      ∃ key, op.modifyKey? = some key ∧
        Text.sameLetters CoreAttribute.destroyed.key key = false) →
    (world.apply (generated ++ report.edited)).2 =
        (world.apply generated).2 ++ (world.apply report.edited).2 ∧
      (world.apply (report.edited ++ generated)).2 =
        (world.apply report.edited).2 ++ (world.apply generated).2 ∧
      (world.apply (generated ++ report.edited)).1.Alike
        (world.apply (report.edited ++ generated)).1 := by
  intro report hconflict hmodify
  have hindependent := independent_of_conflict_eq_none hconflict hmodify
  exact ⟨hindependent.outcomes_append world, hindependent.symm.outcomes_append world,
    hindependent.alike world⟩

/-- The sides modify the hero in turn, in part without success, and each order leaves the hero's
attributes in an order of its own. -/
theorem either_order_hero :
    let hero : EntityId := ⟨.character, "hero"⟩
    let sword : EntityId := ⟨.item, "sword"⟩
    let cup : EntityId := ⟨.item, "cup"⟩
    let world := (World.empty.apply [.create hero [("hp", .int 3)], .create cup []]).1
    let generated : List Operation := [.create sword [], .modify hero "mp" .add (.int 2),
      .modify hero "EntityId" .equal (.text "x"), .delete cup]
    let edited : List Operation := [.create sword [], .modify sword "owner" .equal (.text "user"),
      .modify hero "title" .equal (.text "Sir"), .modify hero "hp" .add (.text "x")]
    let report := (detect (.sequential "_") world generated edited 1).1
    let first := world.apply (generated ++ report.edited)
    let second := world.apply (report.edited ++ generated)
    report.conflict = none ∧
      (∀ op ∈ generated ++ report.edited, (∃ g ∈ generated, g.target = op.target) →
        (∃ e ∈ report.edited, e.target = op.target) →
        ∃ key, op.modifyKey? = some key ∧
          Text.sameLetters CoreAttribute.destroyed.key key = false) ∧
      first.1.stored? hero =
        some ⟨hero, [("hp", .int 3), ("mp", .int 2), ("title", .text "Sir")], false⟩ ∧
      second.1.stored? hero =
        some ⟨hero, [("hp", .int 3), ("title", .text "Sir"), ("mp", .int 2)], false⟩ ∧
      (first.2.map Outcome.isSuccess) = [true, true, false, true, true, true, true, false] ∧
      first.2 = (world.apply generated).2 ++ (world.apply report.edited).2 ∧
      second.2 = (world.apply report.edited).2 ++ (world.apply generated).2 ∧
      first.1.Alike second.1 := by
  intro hero sword cup world generated edited report first second
  have hedited : report.edited = [.create ⟨.item, "sword_1"⟩ [],
      .modify ⟨.item, "sword_1"⟩ "owner" .equal (.text "user"),
      .modify hero "title" .equal (.text "Sir"), .modify hero "hp" .add (.text "x")] := by
    subst report edited generated world cup sword hero
    rfl
  have hconflict : report.conflict = none := by
    subst report edited generated world cup sword hero
    rfl
  have hmodify : ∀ op ∈ generated ++ report.edited, (∃ g ∈ generated, g.target = op.target) →
      (∃ e ∈ report.edited, e.target = op.target) →
      ∃ key, op.modifyKey? = some key ∧
        Text.sameLetters CoreAttribute.destroyed.key key = false := by
    have hkeys : ∀ key ∈ ["mp", "EntityId", "title", "hp"],
        Text.sameLetters CoreAttribute.destroyed.key key = false := by decide
    rw [hedited]
    simpa [generated, hero, sword, cup, Operation.target, Operation.modifyKey?] using hkeys
  obtain ⟨hfirst, hsecond, halike⟩ := either_order (.sequential "_") world generated edited 1
    hconflict hmodify
  refine ⟨hconflict, hmodify, ?_, ?_, ?_, hfirst, hsecond, halike⟩
  · subst first report edited generated world cup sword hero
    rfl
  · subst second report edited generated world cup sword hero
    rfl
  · subst first report edited generated world cup sword hero
    rfl

end BranchingStory.Merge
