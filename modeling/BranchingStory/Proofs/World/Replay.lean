import BranchingStory.Proofs.World.Slot

/-!
# Replaying what succeeded

A failed operation leaves the world as it was, so the operations of a batch that succeeded lead to
the same world on their own, and all of them succeed again. Batches that succeed in full can be
joined: a queue of such operations grows with every batch and still leads to the last world. And a
batch succeeds in full exactly when it does so under every name.
-/

namespace BranchingStory

/-- The outcomes of operations that all succeeded. -/
def Outcome.successes (ops : List Operation) : List Outcome := ops.map fun op => ⟨op, none⟩

/-- No outcome of operations that all succeeded is a failure. -/
@[simp] theorem Outcome.allSucceeded_successes (ops : List Operation) :
    Outcome.allSucceeded (Outcome.successes ops) = true := by
  simp [allSucceeded, successes, isSuccess]

/-- Of operations that all succeeded, all are successful. -/
@[simp] theorem Outcome.successful_successes (ops : List Operation) :
    Outcome.successful (Outcome.successes ops) = ops := by
  simp [successful, successes, isSuccess, List.filter_map, Function.comp_def]

/-- A list of outcomes without a failure is that of operations that all succeeded. -/
theorem Outcome.eq_successes {outcomes : List Outcome} (h : Outcome.allSucceeded outcomes = true) :
    outcomes = Outcome.successes (outcomes.map Outcome.operation) := by
  rw [successes, List.map_map]
  symm
  refine (List.map_congr_left fun o ho => ?_).trans (List.map_id outcomes)
  obtain ⟨op, error⟩ := o
  have hs := List.all_eq_true.1 h _ ho
  obtain rfl := Option.isNone_iff_eq_none.1 hs
  rfl

namespace World

/-- An operation of a batch has the outcome that it has in the world that the operations before it
leave. -/
theorem getElem?_apply (w : World) (before : List Operation) (op : Operation)
    (after : List Operation) :
    (w.apply (before ++ op :: after)).2[before.length]? =
      some ((w.apply before).1.applyOne op).2 := by
  have hlength : (w.apply before).2.length = before.length := by
    rw [← List.length_map Outcome.operation, map_operation_apply]
  rw [apply_append, apply_cons]
  dsimp only
  rw [← hlength, List.getElem?_append_right (Nat.le_refl _), Nat.sub_self, List.getElem?_cons_zero]

/-- The whole batch succeeds in one world and leads to the other. -/
def Leads (w : World) (ops : List Operation) (v : World) : Prop :=
  w.apply ops = (v, Outcome.successes ops)

/-- A batch that succeeds leads to the world that it leaves. -/
theorem leads_iff {w v : World} {ops : List Operation} :
    w.Leads ops v ↔ Outcome.allSucceeded (w.apply ops).2 = true ∧ (w.apply ops).1 = v := by
  constructor
  · intro h
    rw [h]
    exact ⟨Outcome.allSucceeded_successes ops, rfl⟩
  · rintro ⟨hs, rfl⟩
    have ho := Outcome.eq_successes hs
    rw [map_operation_apply] at ho
    exact Prod.ext rfl ho

/-- No operations lead nowhere else. -/
theorem Leads.nil (w : World) : w.Leads [] w := rfl

/-- No operations lead from a world to itself only. -/
theorem leads_nil_iff {w v : World} : w.Leads [] v ↔ w = v := by
  simp [Leads, Outcome.successes]

/-- Batches that lead from world to world lead there as one. -/
theorem Leads.append {u v w : World} {first second : List Operation} (h : u.Leads first v)
    (k : v.Leads second w) : u.Leads (first ++ second) w := by
  rw [Leads, apply_append, h, k]
  simp [Outcome.successes]

/-- A batch in two parts leads where its second part leads from where the first one does. -/
theorem leads_append_iff {u w : World} {first second : List Operation} :
    u.Leads (first ++ second) w ↔ ∃ v, u.Leads first v ∧ v.Leads second w := by
  constructor
  · intro h
    rw [leads_iff, apply_append, Outcome.allSucceeded, List.all_append, Bool.and_eq_true] at h
    obtain ⟨⟨hfirst, hsecond⟩, hlast⟩ := h
    exact ⟨_, leads_iff.2 ⟨hfirst, rfl⟩, leads_iff.2 ⟨hsecond, hlast⟩⟩
  · rintro ⟨v, hfirst, hsecond⟩
    exact hfirst.append hsecond

/-- An operation leads to the next world if it succeeds and changes nothing otherwise. -/
theorem applyOne_cases (w : World) (op : Operation) :
    (w.applyOne op).2.isSuccess = true ∧ w.Leads [op] (w.applyOne op).1 ∨
      (w.applyOne op).2.isSuccess = false ∧ (w.applyOne op).1 = w := by
  rw [Leads, apply_cons, apply_nil, applyOne]
  split
  · exact .inl ⟨rfl, rfl⟩
  · exact .inr ⟨rfl, rfl⟩

/-- The operations of a batch that succeeded lead to the same world as the whole batch. -/
theorem leads_successful (w : World) (ops : List Operation) :
    w.Leads (Outcome.successful (w.apply ops).2) (w.apply ops).1 := by
  induction ops generalizing w with
  | nil => exact Leads.nil w
  | cons op ops ih =>
    have hrest := ih (w.applyOne op).1
    rw [apply_cons]
    rcases applyOne_cases w op with ⟨hs, hop⟩ | ⟨hs, hw⟩
    · have hcons : Outcome.successful ((w.applyOne op).2 :: ((w.applyOne op).1.apply ops).2) =
          [op] ++ Outcome.successful ((w.applyOne op).1.apply ops).2 := by
        simp [Outcome.successful, hs]
      rw [hcons]
      exact hop.append hrest
    · have hcons : Outcome.successful ((w.applyOne op).2 :: ((w.applyOne op).1.apply ops).2) =
          Outcome.successful ((w.applyOne op).1.apply ops).2 := by
        simp [Outcome.successful, hs]
      rw [hcons]
      rw [hw] at hrest ⊢
      exact hrest

end World

namespace Slot

/-- The whole batch succeeds in one slot and leads to the other. -/
def Leads (slot : Slot) (ops : List Operation) (last : Slot) : Prop :=
  apply slot ops = (last, Outcome.successes ops)

/-- No operations lead nowhere else. -/
@[simp] theorem leads_nil_iff {slot last : Slot} : Leads slot [] last ↔ slot = last := by
  simp [Leads, Outcome.successes]

/-- A batch leads somewhere when its first operation leads to where the rest does. -/
theorem leads_cons_iff {slot last : Slot} {op : Operation} {ops : List Operation} :
    Leads slot (op :: ops) last ↔ ∃ next, step slot op = .ok next ∧ Leads next ops last := by
  cases hstep : step slot op with
  | ok next => simp [Leads, apply_cons, applyOne, hstep, Outcome.successes, Prod.ext_iff]
  | error error => simp [Leads, apply_cons, applyOne, hstep, Outcome.successes, Prod.ext_iff]

/-- Batches that lead from slot to slot lead there as one. -/
theorem Leads.append {slot next last : Slot} {first second : List Operation}
    (h : Leads slot first next) (k : Leads next second last) :
    Leads slot (first ++ second) last := by
  rw [Leads, apply_append, h, k]
  simp [Outcome.successes]

/-- A batch leads to one slot only. -/
theorem Leads.unique {slot last last' : Slot} {ops : List Operation} (h : Leads slot ops last)
    (h' : Leads slot ops last') : last = last' :=
  congrArg Prod.fst (h.symm.trans h')

/-- A batch that leaves a slot empty found it empty and creates nothing. -/
theorem Leads.of_none {slot : Slot} {ops : List Operation} (h : Leads slot ops none) :
    slot = none ∧ ∀ op ∈ ops, op.isCreate = false := by
  induction ops generalizing slot with
  | nil => exact ⟨leads_nil_iff.1 h, by simp⟩
  | cons op ops ih =>
    obtain ⟨next, hstep, hrest⟩ := leads_cons_iff.1 h
    obtain ⟨rfl, hops⟩ := ih hrest
    refine ⟨eq_none_of_step hstep, List.forall_mem_cons.2 ⟨?_, hops⟩⟩
    rcases step_cases hstep with ⟨_, _, _, _, _, _, hn⟩ | ⟨_, _, _, _, _, _, rfl, _⟩ | ⟨_, rfl, _⟩
    · cases hn
    · rfl
    · rfl

end Slot

namespace World

/-- A batch that leads from world to world does so under each name. -/
theorem Leads.slot {w v : World} {ops : List Operation} (h : w.Leads ops v) (target : EntityId) :
    Slot.Leads (w.stored? target) (ops.filter fun op => op.target = target)
      (v.stored? target) := by
  have hoperations : ∀ outcomes : List Outcome, outcomes = Outcome.successes ops →
      outcomes.filter (fun o => o.operation.target = target) =
        Outcome.successes (ops.filter fun op => op.target = target) := by
    rintro _ rfl
    simp only [Outcome.successes, List.filter_map, Function.comp_def]
  have hstored := stored?_apply w ops target
  have houtcomes := outcomes_apply w ops target
  rw [hoperations _ (congrArg Prod.snd h)] at houtcomes
  rw [congrArg Prod.fst h] at hstored
  exact Prod.ext hstored.symm houtcomes.symm

/-- An operation of a batch that succeeds in full does so in the slot that the operations before it
leave under its name. -/
theorem Leads.exists_step {w v : World} {before after : List Operation} {op : Operation}
    (h : w.Leads (before ++ op :: after) v) :
    ∃ next last, Slot.Leads (w.stored? op.target)
      (before.filter fun e => e.target = op.target) next ∧ Slot.step next op = .ok last := by
  obtain ⟨u, hbefore, hafter⟩ := leads_append_iff.1 h
  have hrest := hafter.slot op.target
  rw [List.filter_cons_of_pos (by simp)] at hrest
  obtain ⟨last, hstep, -⟩ := Slot.leads_cons_iff.1 hrest
  exact ⟨_, last, hbefore.slot op.target, hstep⟩

/-- A batch succeeds in full when it does so under each name. -/
theorem leads_of_slots {w : World} {ops : List Operation}
    (h : ∀ target, ∃ last, Slot.Leads (w.stored? target)
      (ops.filter fun op => op.target = target) last) : w.Leads ops (w.apply ops).1 := by
  refine leads_iff.2 ⟨(allSucceeded_apply_iff w ops).2 fun target => ?_, rfl⟩
  obtain ⟨last, hlast⟩ := h target
  rw [hlast]
  exact Outcome.allSucceeded_successes _

end World

end BranchingStory
