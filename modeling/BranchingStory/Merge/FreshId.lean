import BranchingStory.Merge.Renamer

/-!
# Fresh ids

A renamer is asked for proposals until one is free, up to a limit. When the limit is reached the
last proposal gets a number: the least positive one that makes it free. The search for the number
has no limit of its own. It ends because different numbers make different ids, so that each number
whose id is taken leaves fewer taken names for the numbers to come.
-/

namespace BranchingStory.Merge

/-- How many proposals a renamer is asked for at most. -/
def maxProposals : Nat := 8

/-- The id is taken within the kind of the target. -/
def isTaken (taken : List EntityId) (target : EntityId) (id : String) : Bool :=
  taken.contains { target with id }

/-- A proposal with a number. -/
def numbered (base : String) (n : Nat) : String := base ++ "_" ++ toString n

/-- Different numbers make different ids. -/
theorem numbered_injective {base : String} {m n : Nat} (h : numbered base m = numbered base n) :
    m = n := by
  have hs : (toString m).toList = (toString n).toList :=
    congrArg String.toList ((String.append_right_inj _).1 h)
  have hd : Nat.toDigits 10 m = Nat.toDigits 10 n := by
    simpa only [Nat.toString_eq_repr, Nat.toList_repr] using hs
  rw [← Nat.ofDigitChars_ten_toDigits (n := m), hd, Nat.ofDigitChars_ten_toDigits]

/-- The taken name is none that a number below `n` makes of the base. -/
def isAhead (target : EntityId) (base : String) (n : Nat) (name : EntityId) : Bool :=
  (List.range n).all fun k => name != { target with id := numbered base k }

private theorem countP_lt_countP {α : Type} {p q : α → Bool} {l : List α} {a : α}
    (hpq : ∀ x, p x = true → q x = true) (ha : a ∈ l) (hp : p a = false) (hq : q a = true) :
    l.countP p < l.countP q := by
  obtain ⟨before, after, rfl⟩ := List.append_of_mem ha
  have hb : before.countP p ≤ before.countP q := List.countP_mono_left fun x _ => hpq x
  have hr : after.countP p ≤ after.countP q := List.countP_mono_left fun x _ => hpq x
  simp only [List.countP_append, List.countP_cons, hp, hq, ite_true, Bool.false_eq_true, ite_false]
  omega

/-- Past a number whose id is taken there are fewer taken names ahead. -/
theorem countP_isAhead_lt {taken : List EntityId} {target : EntityId} {base : String} {n : Nat}
    (h : isTaken taken target (numbered base n) = true) :
    taken.countP (isAhead target base (n + 1)) < taken.countP (isAhead target base n) := by
  refine countP_lt_countP (a := { target with id := numbered base n }) ?_ ?_ ?_ ?_
  · intro name hn
    simp only [isAhead, List.all_eq_true, List.mem_range] at hn ⊢
    exact fun k hk => hn k (Nat.lt_succ_of_lt hk)
  · simpa [isTaken] using h
  · simp [isAhead, List.range_succ]
  · simp only [isAhead, List.all_eq_true, List.mem_range, bne_iff_ne, ne_eq,
      EntityId.mk.injEq, true_and]
    exact fun k hk he => Nat.lt_irrefl k (numbered_injective he ▸ hk)

/-- The least number from `n` on that makes a proposal free. -/
def firstFreeNumber (taken : List EntityId) (target : EntityId) (base : String) (n : Nat) : Nat :=
  if h : isTaken taken target (numbered base n) = true then
    firstFreeNumber taken target base (n + 1)
  else n
termination_by taken.countP (isAhead target base n)
decreasing_by exact countP_isAhead_lt h

/-- The number found makes the proposal free. -/
theorem isTaken_firstFreeNumber (taken : List EntityId) (target : EntityId) (base : String)
    (n : Nat) :
    isTaken taken target (numbered base (firstFreeNumber taken target base n)) = false := by
  fun_induction firstFreeNumber taken target base n with
  | case1 n h ih => exact ih
  | case2 n h => simpa using h

/-- The search passes over taken ids only. -/
theorem isTaken_of_lt_firstFreeNumber {taken : List EntityId} {target : EntityId} {base : String}
    {n k : Nat} (hn : n ≤ k) (hk : k < firstFreeNumber taken target base n) :
    isTaken taken target (numbered base k) = true := by
  fun_induction firstFreeNumber taken target base n with
  | case1 n h ih =>
    rcases Nat.eq_or_lt_of_le hn with rfl | hlt
    · exact h
    · exact ih hlt hk
  | case2 n h => omega

/-- The search does not go back. -/
theorem le_firstFreeNumber (taken : List EntityId) (target : EntityId) (base : String) (n : Nat) :
    n ≤ firstFreeNumber taken target base n := by
  fun_induction firstFreeNumber taken target base n with
  | case1 n h ih => omega
  | case2 n h => exact Nat.le_refl n

/-- The search passes over at most as many numbers as there are taken names. -/
theorem firstFreeNumber_le (taken : List EntityId) (target : EntityId) (base : String) (n : Nat) :
    firstFreeNumber taken target base n ≤ n + taken.length := by
  have hahead : firstFreeNumber taken target base n ≤
      n + taken.countP (isAhead target base n) := by
    fun_induction firstFreeNumber taken target base n with
    | case1 n h ih =>
      have hlt := countP_isAhead_lt h
      omega
    | case2 n h => omega
  have hlength : taken.countP (isAhead target base n) ≤ taken.length := List.countP_le_length
  omega

/-- The candidate if it is free, else the first free one of so many more proposals; the last
proposal is not looked at but numbered. -/
def tryProposals {Memory : Type} (renamer : Renamer Memory) (taken : List EntityId)
    (target : EntityId) : Nat → String → Memory → String × Memory
  | 0, candidate, memory =>
    (numbered candidate (firstFreeNumber taken target candidate 1), memory)
  | more + 1, candidate, memory =>
    if isTaken taken target candidate then
      let (next, memory) := renamer.propose target memory
      tryProposals renamer taken target more next memory
    else (candidate, memory)

/-- A new id for the target that is free within its kind. -/
def freshId {Memory : Type} (renamer : Renamer Memory) (taken : List EntityId)
    (target : EntityId) (memory : Memory) : String × Memory :=
  let (first, memory) := renamer.propose target memory
  tryProposals renamer taken target (maxProposals - 1) first memory

/-- However many proposals are left, the id chosen is free. -/
theorem isTaken_tryProposals {Memory : Type} (renamer : Renamer Memory) (taken : List EntityId)
    (target : EntityId) (more : Nat) (candidate : String) (memory : Memory) :
    isTaken taken target (tryProposals renamer taken target more candidate memory).1 = false := by
  induction more generalizing candidate memory with
  | zero => exact isTaken_firstFreeNumber taken target candidate 1
  | succ more ih =>
    unfold tryProposals
    split
    · exact ih _ _
    · next h => simpa using h

/-- A fresh id is free within the kind of its target. -/
theorem isTaken_freshId {Memory : Type} (renamer : Renamer Memory) (taken : List EntityId)
    (target : EntityId) (memory : Memory) :
    isTaken taken target (freshId renamer taken target memory).1 = false :=
  isTaken_tryProposals renamer taken target _ _ _

end BranchingStory.Merge
