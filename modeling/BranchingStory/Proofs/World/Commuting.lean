import BranchingStory.Proofs.World.Agreement

/-!
# Independent batches

Two batches are independent when on every target that both address they only modify attributes, none
of them the mark of destruction, and never the same one. Each operation of independent batches has
the outcome that it has in its batch alone, whichever batch comes first. The worlds that the two
orders end in store the same entities with the same attributes. Only the order in which an entity
got its attributes may differ.
-/

namespace BranchingStory

/-- Two lists of outcomes for the same operations are equal if they are so under each target. -/
theorem Outcome.ext_target {first second : List Outcome}
    (hops : first.map Outcome.operation = second.map Outcome.operation)
    (h : ∀ target, first.filter (fun o => o.operation.target = target) =
      second.filter fun o => o.operation.target = target) : first = second := by
  induction first generalizing second with
  | nil => exact (List.map_eq_nil_iff.1 hops.symm).symm
  | cons o first ih =>
    obtain ⟨p, second, rfl⟩ := List.exists_cons_of_ne_nil (l := second) fun hnil => by
      subst hnil
      cases hops
    rw [List.map_cons, List.map_cons, List.cons.injEq] at hops
    have hhead := h o.operation.target
    simp only [List.filter_cons, ← hops.1, decide_true, if_true, List.cons.injEq] at hhead
    rw [hhead.1, ih hops.2 fun target => ?_]
    have htail := h target
    simp only [List.filter_cons, ← hops.1] at htail
    split at htail
    · exact (List.cons.inj htail).2
    · exact htail

/-- Two entities are the same, but for the order of their attributes. -/
structure Entity.Alike (e f : Entity) : Prop where
  /-- The names are the same. -/
  name : e.name = f.name
  /-- The marks of destruction are the same. -/
  destroyed : e.destroyed = f.destroyed
  /-- The values at every key are the same. -/
  value : ∀ key, e.attribute? key = f.attribute? key

namespace Slot

/-- Two batches of modifications of different keys, none of them the mark of destruction, leave
slots that agree in both orders. -/
theorem agree_comm (slot : Slot) {first second : List Operation}
    (hfirst : ∀ op ∈ first, ∃ key, op.modifyKey? = some key ∧
      CoreAttribute.ofKey? key ≠ some .destroyed)
    (hsecond : ∀ op ∈ second, ∃ key, op.modifyKey? = some key ∧
      CoreAttribute.ofKey? key ≠ some .destroyed)
    (hkeys : ∀ op ∈ first, ∀ other ∈ second, ∀ key, op.modifyKey? = some key →
      other.modifyKey? ≠ some key) :
    Agree [] (Slot.apply (Slot.apply slot first).1 second).1
      (Slot.apply (Slot.apply slot second).1 first).1 := by
  have hown : ∀ ops : List Operation, (∀ op ∈ ops, ∃ key, op.modifyKey? = some key ∧
      CoreAttribute.ofKey? key ≠ some .destroyed) → ∀ before : Slot,
      Agree (ops.filterMap Operation.modifyKey?) before (Slot.apply before ops).1 := by
    intro ops hops before
    refine agree_apply before fun op hop => ?_
    obtain ⟨key, hk, hcore⟩ := hops op hop
    exact ⟨key, hk, List.mem_filterMap.2 ⟨op, hop, hk⟩, hcore⟩
  -- Both orders agree with the second batch alone but for the keys of the first one ...
  have hbut := (agree_after_modifications slot hfirst hkeys).2.symm.trans
    (hown first hfirst (Slot.apply slot second).1)
  -- ... and with the first batch alone but for the keys of the second one.
  have hbut' := (hown second hsecond (Slot.apply slot first).1).symm.trans
    (agree_after_modifications slot hsecond fun op hop other hother key hk hk' =>
      hkeys other hother op hop key hk' hk).2
  refine hbut.inter hbut' fun key hk hk' => ?_
  obtain ⟨op, hop, hopk⟩ := List.mem_filterMap.1 hk
  obtain ⟨other, hother, hotherk⟩ := List.mem_filterMap.1 hk'
  exact hkeys op hop other hother key hopk hotherk

/-- Slots that agree in everything hold entities that are alike. -/
theorem Agree.alike {slot other : Slot} (h : Agree [] slot other) :
    Option.Rel Entity.Alike slot other := by
  cases h with
  | none => exact .none
  | some h => exact .some ⟨h.name, h.destroyed, fun key => h.value key List.not_mem_nil⟩

end Slot

/-- On every target that both batches address they only modify attributes, none of them the mark of
destruction, and not the same one. -/
structure Operation.Independent (first second : List Operation) : Prop where
  /-- On a common target the first batch only modifies. -/
  modifies_first : ∀ op ∈ first, (∃ other ∈ second, other.target = op.target) →
    ∃ key, op.modifyKey? = some key ∧ CoreAttribute.ofKey? key ≠ some .destroyed
  /-- On a common target the second batch only modifies. -/
  modifies_second : ∀ op ∈ second, (∃ other ∈ first, other.target = op.target) →
    ∃ key, op.modifyKey? = some key ∧ CoreAttribute.ofKey? key ≠ some .destroyed
  /-- On a common target the keys are different. -/
  keys : ∀ op ∈ first, ∀ other ∈ second, op.target = other.target →
    ∀ key, op.modifyKey? = some key → other.modifyKey? ≠ some key

namespace Operation.Independent

variable {first second : List Operation}

/-- Independence does not depend on the order. -/
theorem symm (h : Independent first second) : Independent second first :=
  ⟨h.modifies_second, h.modifies_first, fun op hop other hother ht key hk hk' =>
    h.keys other hother op hop ht.symm key hk' hk⟩

/-- Under a name that the second batch addresses the first one only modifies. -/
theorem modifies_filter (h : Independent first second) {target : EntityId}
    (hsecond : second.filter (fun op => op.target = target) ≠ []) :
    ∀ op ∈ first.filter (fun op => op.target = target),
      ∃ key, op.modifyKey? = some key ∧ CoreAttribute.ofKey? key ≠ some .destroyed := by
  intro op hop
  obtain ⟨other, hother⟩ := List.exists_mem_of_ne_nil _ hsecond
  simp only [List.mem_filter, decide_eq_true_eq] at hop hother
  exact h.modifies_first op hop.1 ⟨other, hother.1, hother.2.trans hop.2.symm⟩

/-- Under each name the two batches modify different keys. -/
theorem keys_filter (h : Independent first second) (target : EntityId) :
    ∀ op ∈ first.filter (fun op => op.target = target),
      ∀ other ∈ second.filter (fun op => op.target = target),
      ∀ key, op.modifyKey? = some key → other.modifyKey? ≠ some key := by
  intro op hop other hother
  simp only [List.mem_filter, decide_eq_true_eq] at hop hother
  exact h.keys op hop.1 other hother.1 (hop.2.trans hother.2.symm)

/-- After the first of two independent batches the second one has the outcomes that it has without
it. -/
theorem outcomes_second (h : Independent first second) (w : World) :
    ((w.apply first).1.apply second).2 = (w.apply second).2 := by
  refine Outcome.ext_target ?_ fun target => ?_
  · rw [World.map_operation_apply, World.map_operation_apply]
  · rw [World.outcomes_apply, World.outcomes_apply, World.stored?_apply]
    by_cases hnil : second.filter (fun op => op.target = target) = []
    · rw [hnil]
      rfl
    · have hmodifies := h.modifies_filter hnil
      exact (Slot.agree_after_modifications _ hmodifies (h.keys_filter target)).1.symm

/-- Two independent batches in one have the outcomes that each has alone. -/
theorem outcomes_append (h : Independent first second) (w : World) :
    (w.apply (first ++ second)).2 = (w.apply first).2 ++ (w.apply second).2 := by
  rw [World.apply_append, h.outcomes_second w]

end Operation.Independent

namespace World

/-- The two worlds store the same under each name, but for the order of attributes. -/
def Alike (v w : World) : Prop :=
  ∀ target, Option.Rel Entity.Alike (v.stored? target) (w.stored? target)

end World

/-- Two independent batches lead to worlds that are alike in both orders. -/
theorem Operation.Independent.alike {first second : List Operation} (h : Independent first second)
    (w : World) : (w.apply (first ++ second)).1.Alike (w.apply (second ++ first)).1 := by
  intro target
  refine Slot.Agree.alike ?_
  simp only [World.stored?_apply, List.filter_append, Slot.apply_append]
  by_cases hsecond : second.filter (fun op => op.target = target) = []
  · rw [hsecond]
    exact Slot.Agree.refl [] _
  by_cases hfirst : first.filter (fun op => op.target = target) = []
  · rw [hfirst]
    exact Slot.Agree.refl [] _
  exact Slot.agree_comm _ (h.modifies_filter hsecond) (h.symm.modifies_filter hfirst)
    (h.keys_filter target)

end BranchingStory
