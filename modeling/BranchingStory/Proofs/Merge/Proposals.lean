import BranchingStory.Merge.Detection

/-!
# Which proposal becomes a fresh id

A renamer is asked for proposals until one is free, and is not asked again after that one. The last
proposal that it is asked for at most is not looked at: it gets the least number that makes it free
even if it is free without one.
-/

namespace BranchingStory

variable {Memory : Type}

namespace Renamer

/-- What a renamer remembers after so many proposals for a target. -/
def memoryAfter (renamer : Renamer Memory) (target : EntityId) (memory : Memory) : Nat → Memory
  | 0 => memory
  | n + 1 => (renamer.propose target (memoryAfter renamer target memory n)).2

/-- The proposal for a target that comes after so many others. -/
def proposal (renamer : Renamer Memory) (target : EntityId) (memory : Memory) (n : Nat) : String :=
  (renamer.propose target (renamer.memoryAfter target memory n)).1

end Renamer

namespace Merge

section Proposals

variable (renamer : Renamer Memory) (taken : List EntityId) (target : EntityId) (memory : Memory)

/-- What is chosen when a proposal is at hand and so many more may be asked for. -/
private abbrev chosen (more n : Nat) : String × Memory :=
  tryProposals renamer taken target more (renamer.proposal target memory n)
    (renamer.memoryAfter target memory (n + 1))

variable {renamer taken target memory}

/-- A free proposal is chosen, and no other is asked for. -/
private theorem chosen_of_free {more n : Nat}
    (h : isTaken taken target (renamer.proposal target memory n) = false) :
    chosen renamer taken target memory (more + 1) n =
      (renamer.proposal target memory n, renamer.memoryAfter target memory (n + 1)) := by
  rw [chosen, tryProposals, h]
  rfl

/-- After a proposal that is taken the next one is asked for. -/
private theorem chosen_of_taken {more n : Nat}
    (h : isTaken taken target (renamer.proposal target memory n) = true) :
    chosen renamer taken target memory (more + 1) n =
      chosen renamer taken target memory more (n + 1) := by
  rw [chosen, tryProposals, if_pos h]
  rfl

variable (renamer taken target memory)

/-- Of a proposal at hand and so many more, the first free one is chosen. The last of them is not
looked at but gets the least number that makes it free. -/
private theorem exists_chosen (more n : Nat) :
    ∃ k ≤ more, (∀ i < k, isTaken taken target (renamer.proposal target memory (n + i)) = true) ∧
      (k < more ∧ isTaken taken target (renamer.proposal target memory (n + k)) = false ∧
          chosen renamer taken target memory more n =
            (renamer.proposal target memory (n + k),
              renamer.memoryAfter target memory (n + k + 1)) ∨
        k = more ∧ chosen renamer taken target memory more n =
          (numbered (renamer.proposal target memory (n + k))
              (firstFreeNumber taken target (renamer.proposal target memory (n + k)) 1),
            renamer.memoryAfter target memory (n + k + 1))) := by
  induction more generalizing n with
  | zero => exact ⟨0, Nat.le_refl 0, by simp, .inr ⟨rfl, rfl⟩⟩
  | succ more ih =>
    cases hfirst : isTaken taken target (renamer.proposal target memory n) with
    | false =>
      exact ⟨0, Nat.zero_le _, by simp, .inl ⟨Nat.succ_pos more, hfirst, chosen_of_free hfirst⟩⟩
    | true =>
      obtain ⟨k, hk, htaken, hchosen⟩ := ih (n + 1)
      have hnext : n + 1 + k = n + (k + 1) := Nat.succ_add_eq_add_succ n k
      rw [hnext, ← chosen_of_taken hfirst] at hchosen
      refine ⟨k + 1, Nat.succ_le_succ hk, fun i hi => ?_, ?_⟩
      · cases i with
        | zero => exact hfirst
        | succ i => exact Nat.succ_add_eq_add_succ n i ▸ htaken i (Nat.lt_of_succ_lt_succ hi)
      · simpa only [Nat.succ_lt_succ_iff, Nat.succ.injEq] using hchosen

end Proposals

/-- A fresh id is the first free one of the proposals that may be asked for but the last, and the
renamer is asked for no proposal after it. If all of them are taken, the last proposal gets the
least positive number that makes it free, whether or not it is taken itself. -/
theorem exists_freshId_eq (renamer : Renamer Memory) (taken : List EntityId) (target : EntityId)
    (memory : Memory) :
    let proposal := renamer.proposal target memory
    let fresh := freshId renamer taken target memory
    ∃ k < maxProposals, (∀ i < k, isTaken taken target (proposal i) = true) ∧
      fresh.2 = renamer.memoryAfter target memory (k + 1) ∧
      isTaken taken target fresh.1 = false ∧
      (k + 1 < maxProposals ∧ fresh.1 = proposal k ∨
        k + 1 = maxProposals ∧ ∃ n, 1 ≤ n ∧ fresh.1 = numbered (proposal k) n ∧
          ∀ j, 1 ≤ j → j < n → isTaken taken target (numbered (proposal k) j) = true) := by
  intro proposal fresh
  have hfree : isTaken taken target fresh.1 = false := isTaken_freshId renamer taken target memory
  have hfresh : fresh = chosen renamer taken target memory (maxProposals - 1) 0 := rfl
  obtain ⟨k, hk, htaken, hchosen⟩ :=
    exists_chosen renamer taken target memory (maxProposals - 1) 0
  simp only [Nat.zero_add] at htaken hchosen
  have hbound : k < maxProposals := by
    unfold maxProposals at hk ⊢
    omega
  refine ⟨k, hbound, htaken, ?_, hfree, ?_⟩
  · rcases hchosen with ⟨-, -, hchosen⟩ | ⟨-, hchosen⟩ <;> rw [hfresh, hchosen]
  · rcases hchosen with ⟨hlt, -, hchosen⟩ | ⟨hlast, hchosen⟩
    · exact .inl ⟨by omega, by rw [hfresh, hchosen]⟩
    · refine .inr ⟨by rw [hlast]; rfl, _, le_firstFreeNumber taken target (proposal k) 1,
        by rw [hfresh, hchosen], fun j hj hlt => isTaken_of_lt_firstFreeNumber hj hlt⟩

/-- The eighth proposal for the user's sword is free, but after seven that are taken it is not
looked at, and the sword gets a number behind it. -/
theorem eighth_proposal_numbered :
    let named (id : String) : Operation := .create ⟨.item, id⟩ []
    let sword : EntityId := ⟨.item, "sword"⟩
    let renamer := Renamer.sequential Renamer.defaultInfix
    let proposal := renamer.proposal sword Renamer.firstNumber
    let generated := named "sword" :: (List.range 7).map fun i => named (proposal i)
    let edited := [named "sword"]
    let taken := takenNames .empty generated edited
    (∀ i < 7, isTaken taken sword (proposal i) = true) ∧
      proposal 7 = "sword_user_created_8" ∧ isTaken taken sword (proposal 7) = false ∧
      freshId renamer taken sword Renamer.firstNumber = ("sword_user_created_8_1", 9) ∧
      (detect renamer .empty generated edited Renamer.firstNumber).1.renamed =
        [(sword, "sword_user_created_8_1")] := by
  decide +kernel

end Merge

end BranchingStory
