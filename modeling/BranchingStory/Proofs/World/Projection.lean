import BranchingStory.Proofs.World.Commuting
import Mathlib.Data.List.Perm.Basic

/-!
# Batches told apart by target

What a batch does is what its operations on each target do, and those on one target are told apart
from the others by it: they can be applied without them, and in any world that stores the same under
that name. So neither the order of batches without a common target nor the place of an operation
among those on other targets can be observed.
-/

namespace BranchingStory

/-- Outcomes that are the same under each target are the same up to their order. -/
theorem Outcome.perm_of_target {first second : List Outcome}
    (h : ∀ target, first.filter (fun o => o.operation.target = target) =
      second.filter fun o => o.operation.target = target) : first.Perm second := by
  classical
  refine List.perm_iff_count.2 fun o => ?_
  have hcount : ∀ outcomes : List Outcome,
      (outcomes.filter fun p => p.operation.target = o.operation.target).count o =
        outcomes.count o := fun outcomes => List.count_filter (decide_eq_true rfl)
  rw [← hcount first, h, hcount second]

namespace Operation

/-- The two batches have the same operations, those on each target in the same order. -/
def Rearranged (ops other : List Operation) : Prop :=
  ∀ target, ops.filter (fun op => op.target = target) = other.filter fun op => op.target = target

/-- The two batches have no target in common. -/
def Apart (ops other : List Operation) : Prop :=
  ∀ op ∈ ops, ∀ p ∈ other, op.target ≠ p.target

instance (ops other : List Operation) : Decidable (Apart ops other) :=
  inferInstanceAs (Decidable (∀ op ∈ ops, ∀ p ∈ other, op.target ≠ p.target))

variable {ops other : List Operation}

/-- Batches without a common target are independent. -/
theorem Apart.toIndependent (h : Apart ops other) : Independent ops other where
  modifies_first := fun op hop ⟨p, hp, ht⟩ => absurd ht.symm (h op hop p hp)
  modifies_second := fun p hp ⟨op, hop, ht⟩ => absurd ht (h op hop p hp)
  keys := fun op hop p hp ht => absurd ht (h op hop p hp)

/-- Under each name, one of two batches without a common target has no operations. -/
theorem Apart.filter_eq_nil (h : Apart ops other) (target : EntityId) :
    ops.filter (fun op => op.target = target) = [] ∨
      other.filter (fun op => op.target = target) = [] := by
  refine or_iff_not_imp_left.2 fun hne => List.filter_eq_nil_iff.2 fun p hp ht => ?_
  obtain ⟨op, hop⟩ := List.exists_mem_of_ne_nil _ hne
  obtain ⟨hop, ht'⟩ := List.mem_filter.1 hop
  exact h op hop p hp ((of_decide_eq_true ht').trans (of_decide_eq_true ht).symm)

/-- Batches without a common target are rearranged when they change places. -/
theorem Apart.rearranged (h : Apart ops other) : Rearranged (ops ++ other) (other ++ ops) := by
  intro target
  rw [List.filter_append, List.filter_append]
  rcases h.filter_eq_nil target with hnil | hnil
  · rw [hnil, List.nil_append, List.append_nil]
  · rw [hnil, List.nil_append, List.append_nil]

/-- Rearranged batches leave the same world. -/
theorem Rearranged.world (h : Rearranged ops other) (w : World) :
    (w.apply ops).1 = (w.apply other).1 :=
  World.ext_stored? fun target => by rw [World.stored?_apply, World.stored?_apply, h target]

/-- Under each target, rearranged batches have the same outcomes. -/
theorem Rearranged.outcomes (h : Rearranged ops other) (w : World) (target : EntityId) :
    (w.apply ops).2.filter (fun o => o.operation.target = target) =
      (w.apply other).2.filter fun o => o.operation.target = target := by
  rw [World.outcomes_apply, World.outcomes_apply, h target]

end Operation

namespace World

/-- In a batch on one name alone, the outcomes are those in the slot of the name. -/
theorem outcomes_apply_of_target (w : World) {ops : List Operation} {target : EntityId}
    (h : ∀ op ∈ ops, op.target = target) :
    (w.apply ops).2 = (Slot.apply (w.stored? target) ops).2 := by
  have hops : ops.filter (fun op => op.target = target) = ops :=
    List.filter_eq_self.2 fun op hop => decide_eq_true (h op hop)
  have hall : (w.apply ops).2.filter (fun o => o.operation.target = target) = (w.apply ops).2 := by
    refine List.filter_eq_self.2 fun o ho => decide_eq_true (h _ ?_)
    rw [← map_operation_apply w ops]
    exact List.mem_map_of_mem ho
  rw [← hall, outcomes_apply, hops]

/-- For each target, a batch leaves the entity and has the outcomes that its operations on the
target leave and have alone, in any world that stores the same under that name. So batches without a
common target give the same world and the same outcomes in both orders. And when a batch is
rearranged, but not under any target, it gives the same world and, under each target and all in all,
the same outcomes. -/
theorem apply_by_target (w : World) (ops : List Operation) :
    (∀ (v : World) target, v.stored? target = w.stored? target →
      (v.apply (ops.filter fun op => op.target = target)).1.stored? target =
          (w.apply ops).1.stored? target ∧
        (v.apply (ops.filter fun op => op.target = target)).2 =
          (w.apply ops).2.filter fun o => o.operation.target = target) ∧
    (∀ other, Operation.Apart ops other →
      ((w.apply ops).1.apply other).1 = ((w.apply other).1.apply ops).1 ∧
        ((w.apply ops).1.apply other).2 = (w.apply other).2 ∧
        ((w.apply other).1.apply ops).2 = (w.apply ops).2) ∧
    (∀ other, Operation.Rearranged ops other →
      (w.apply ops).1 = (w.apply other).1 ∧
        (∀ target, (w.apply ops).2.filter (fun o => o.operation.target = target) =
          (w.apply other).2.filter fun o => o.operation.target = target) ∧
        (w.apply ops).2.Perm (w.apply other).2) := by
  refine ⟨fun v target h => ⟨?_, ?_⟩, fun other h => ⟨?_, ?_, ?_⟩, fun other h =>
    ⟨h.world w, h.outcomes w, Outcome.perm_of_target (h.outcomes w)⟩⟩
  · rw [stored?_apply, stored?_apply, List.filter_filter, h]
    simp only [Bool.and_self]
  · rw [outcomes_apply_of_target v fun op hop => of_decide_eq_true (List.mem_filter.1 hop).2, h,
      outcomes_apply]
  · have hworld := h.rearranged.world w
    rwa [apply_append, apply_append] at hworld
  · exact h.toIndependent.outcomes_second w
  · exact h.toIndependent.symm.outcomes_second w

/-- A character, a destroyed item and a place of one id do not meet. -/
theorem apply_by_target_namesakes :
    let hero : EntityId := ⟨.character, "hero"⟩
    let statue : EntityId := ⟨.item, "hero"⟩
    let world := (World.empty.apply [.create hero [("hp", .int 3)], .create statue [],
      .delete statue]).1
    let alone := (World.empty.apply [.create hero [("hp", .int 3)]]).1
    let ops : List Operation := [.modify hero "hp" .add (.int 2),
      .modify statue "size" .equal (.int 1), .modify hero "hp" .add (.text "x"), .create statue []]
    let town : List Operation := [.create ⟨.place, "hero"⟩ []]
    let sorted : List Operation := [.modify statue "size" .equal (.int 1), .create statue [],
      .modify hero "hp" .add (.int 2), .modify hero "hp" .add (.text "x")]
    (world.apply ops).2.map Outcome.isSuccess = [true, false, false, true] ∧
      (world.apply sorted).2.map Outcome.isSuccess = [false, true, true, false] ∧
      alone.stored? hero = world.stored? hero ∧
      (alone.apply (ops.filter fun op => op.target = hero)).1.stored? hero =
        (world.apply ops).1.stored? hero ∧
      Operation.Apart ops town ∧
      ((world.apply ops).1.apply town).1 = ((world.apply town).1.apply ops).1 ∧
      Operation.Rearranged ops sorted ∧ (world.apply ops).1 = (world.apply sorted).1 := by
  intro hero statue world alone ops town sorted
  obtain ⟨htarget, hapart, hrearranged⟩ := apply_by_target world ops
  have hsame : alone.stored? hero = world.stored? hero := by
    subst alone world statue hero
    rfl
  have happart : Operation.Apart ops town := by decide
  have hsorted : Operation.Rearranged ops sorted := by
    intro target
    by_cases hhero : hero = target
    · subst hhero
      rfl
    · by_cases hstatue : statue = target
      · subst hstatue
        rfl
      · simp [ops, sorted, Operation.target, hhero, hstatue]
  have houtcomes : (world.apply ops).2.map Outcome.isSuccess = [true, false, false, true] := by
    decide +kernel
  have houtcomes' : (world.apply sorted).2.map Outcome.isSuccess = [false, true, true, false] := by
    decide +kernel
  exact ⟨houtcomes, houtcomes', hsame, (htarget alone hero hsame).1, happart,
    (hapart town happart).1, hsorted, (hrearranged sorted hsorted).1⟩

end World

end BranchingStory
