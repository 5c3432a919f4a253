import BranchingStory.Proofs.World.Slot

/-!
# Worlds built by operations

Every world of a story comes from the empty one by batches of operations. In such a world an entity
bears the name that it is stored under, so listing the live entities and looking names up agree.
-/

namespace BranchingStory

namespace Slot

/-- An entity that an operation leaves in a slot bears the name of the slot. -/
theorem name_step {slot : Slot} {op : Operation} {e : Entity}
    (hslot : ∀ d, slot = some d → d.name = op.target) (h : step slot op = .ok (some e)) :
    e.name = op.target := by
  rcases step_cases h with ⟨target, attributes, d, rfl, _, hd, he⟩ |
    ⟨target, key, o, v, d, changed, rfl, hs, _, _, _, hm, he⟩ | ⟨target, rfl, he⟩
  · cases he
    exact Entity.name_setAttributes hd
  · cases he
    rw [Entity.name_modifyAttribute hm]
    exact hslot d hs
  · obtain ⟨d, hd, rfl⟩ := Option.map_eq_some_iff.1 he.symm
    exact hslot d hd

end Slot

namespace World

/-- The world comes from the empty one by batches of operations. -/
inductive Built : World → Prop
  /-- The empty world. -/
  | empty : Built .empty
  /-- The world after one more batch. -/
  | apply {w : World} (h : Built w) (ops : List Operation) : Built (w.apply ops).1

/-- Every entity has a property under the name that it is stored under. -/
def Stores (w : World) (P : EntityId → Entity → Prop) : Prop :=
  ∀ target e, w.stored? target = some e → P target e

/-- Every entity bears the name that it is stored under. -/
def KeepsNames (w : World) : Prop := ∀ target e, w.stored? target = some e → e.name = target

section Invariant

variable {P : EntityId → Entity → Prop}
  (hstep : ∀ {slot : Slot} {op : Operation} {e : Entity}, (∀ d, slot = some d → P op.target d) →
    Slot.step slot op = .ok (some e) → P op.target e)
include hstep

/-- One operation keeps a property of all entities that it keeps in the slot of its target. -/
theorem Stores.applyOne {w : World} (h : w.Stores P) (op : Operation) :
    (w.applyOne op).1.Stores P := by
  intro target e he
  rw [stored?_applyOne] at he
  split at he
  · next ht =>
    subst ht
    unfold Slot.applyOne at he
    split at he
    · next hs =>
      subst he
      exact hstep (h op.target) hs
    · exact h _ e he
  · exact h target e he

/-- A batch keeps a property of all entities that each operation keeps. -/
theorem Stores.apply {w : World} (h : w.Stores P) (ops : List Operation) :
    (w.apply ops).1.Stores P := by
  induction ops generalizing w with
  | nil => exact h
  | cons op ops ih => exact ih (h.applyOne hstep op)

/-- A property of entities that each operation keeps is one of all entities of a built world. -/
theorem Built.stores {w : World} (h : w.Built) : w.Stores P := by
  induction h with
  | empty => exact fun target e he => by simp at he
  | apply h ops ih => exact ih.apply hstep ops

end Invariant

/-- Built worlds store entities under their names. -/
theorem Built.keepsNames {w : World} (h : w.Built) : w.KeepsNames := h.stores Slot.name_step

/-- The live entities are those that some name finds. -/
theorem mem_liveEntities_iff {w : World} {e : Entity} :
    e ∈ w.liveEntities ↔ ∃ target, w.live? target = some e := by
  have htable : ∀ kind, e ∈ w.entities kind ↔ ∃ id, w.stored? ⟨kind, id⟩ = some e := by
    intro kind
    simp only [entities, Table.values, List.mem_map, Prod.exists, exists_eq_right, stored?,
      Table.mem_entries_iff]
  simp only [liveEntities, List.mem_filter, List.mem_flatMap, htable, live?,
    Option.filter_eq_some_iff]
  constructor
  · rintro ⟨⟨kind, _, id, hs⟩, hd⟩
    exact ⟨⟨kind, id⟩, hs, hd⟩
  · rintro ⟨⟨kind, id⟩, hs, hd⟩
    exact ⟨⟨kind, by cases kind <;> decide, id, hs⟩, hd⟩

/-- In a built world the names of the live entities are the names that have a live entity. -/
theorem Built.mem_names_iff {w : World} (h : w.Built) {target : EntityId} :
    target ∈ w.liveEntities.map Entity.name ↔ w.contains target = true := by
  simp only [List.mem_map, mem_liveEntities_iff, contains, Option.isSome_iff_exists]
  constructor
  · rintro ⟨e, ⟨other, he⟩, rfl⟩
    rw [h.keepsNames other e (Option.filter_eq_some_iff.1 he).1]
    exact ⟨e, he⟩
  · rintro ⟨e, he⟩
    exact ⟨e, ⟨target, he⟩, h.keepsNames target e (Option.filter_eq_some_iff.1 he).1⟩

end World

end BranchingStory
