import BranchingStory.Proofs.Merge.Renaming
import BranchingStory.Proofs.Value.Equality
import Mathlib.Data.List.Find
import Mathlib.Data.List.Nodup

/-!
# Conflicts are the modifications of one key on both sides

Conflicts are found by going through the user's operations and looking up the generator's by target;
they are reported as the pairwise definition says: each side's operations that modify a key which
the other side modifies, in the order of the batch, those that repeat an earlier one left out. What
is found first is not what comes first in the generator's batch. But of several operations that are
the same always the first of the batch is found, so sorting by first places restores its order.
-/

namespace BranchingStory

namespace Operation

/-- Both operations modify the same key of the same entity. -/
def sameKey : Operation → Operation → Bool
  | modify s j _ _, modify t k _ _ => s == t && j == k
  | _, _ => false

/-- Operations that are the same modify the same keys. -/
theorem sameKey_congr {a b : Operation} (h : (a == b) = true) (c : Operation) :
    a.sameKey c = b.sameKey c := by
  rw [same_iff] at h
  cases a <;> cases b <;> simp only at h
  · rfl
  · obtain ⟨rfl, rfl, _⟩ := h
    cases c <;> rfl
  · rfl

/-- Two operations with a key in common have the same target. -/
theorem target_eq_of_sameKey {a b : Operation} (h : a.sameKey b = true) : a.target = b.target := by
  cases a <;> cases b <;> simp_all [sameKey, target]

/-- To have a key in common does not depend on the order. -/
theorem sameKey_comm (a b : Operation) : a.sameKey b = b.sameKey a := by
  cases a <;> cases b <;> simp [sameKey, Bool.beq_comm]

/-- Whether two operations block is whether both modify one key of one entity. -/
theorem isBlocking_eq_sameKey (g e : Operation) :
    (Interaction.of g e).isBlocking = g.sameKey e := by
  rw [Bool.eq_iff_iff, Interaction.isBlocking_of_iff]
  cases g <;> cases e <;> simp [sameKey, target, modifyKey?]
  exact fun _ => eq_comm

/-- Two operations have a key in common when they modify it on the same target. -/
theorem sameKey_iff (a b : Operation) :
    a.sameKey b = true ↔
      a.target = b.target ∧ ∃ key, a.modifyKey? = some key ∧ b.modifyKey? = some key := by
  rw [← isBlocking_eq_sameKey, Interaction.isBlocking_of_iff]

/-- Lists without repetitions are built from the operations that are not the same as the first. -/
theorem eraseDups_induction {P : List Operation → Prop} (nil : P [])
    (cons : ∀ first rest, P (rest.filter fun g => !g == first) → P (first :: rest))
    (batch : List Operation) : P batch := by
  match batch with
  | [] => exact nil
  | first :: rest =>
    have hlength : (rest.filter fun g => !g == first).length < (first :: rest).length :=
      Nat.lt_succ_of_le (List.length_filter_le _ _)
    exact cons first rest (eraseDups_induction nil cons _)
termination_by batch.length
decreasing_by exact hlength

/-- What a list without repetitions holds is the first of its kind in the list. -/
theorem mem_eraseDups_iff {batch : List Operation} (h : ∀ op ∈ batch, op.Comparable)
    (op : Operation) : op ∈ batch.eraseDups ↔ batch.find? (fun g => g == op) = some op := by
  induction batch using eraseDups_induction with
  | nil => simp
  | cons first rest ih =>
    rw [List.forall_mem_cons] at h
    have hrest := ih fun g hg => h.2 g (List.mem_of_mem_filter hg)
    rw [List.eraseDups_cons, List.mem_cons, hrest, List.find?_filter, List.find?_cons]
    cases hf : first == op with
    | true =>
      rw [Option.some.injEq]
      refine ⟨fun hor => hor.elim Eq.symm fun hm => ?_, fun he => .inl he.symm⟩
      have hmem := List.mem_of_find?_eq_some hm
      have hp := List.find?_some hm
      have hs := h.1.symm (h.2 op hmem) hf
      simp [hs] at hp
    | false =>
      have hne : op ≠ first := fun he => by
        rw [he, h.1.refl] at hf
        cases hf
      have hcongr : rest.find? (fun g => decide ((!g == first) = true ∧ (g == op) = true)) =
          rest.find? fun g => g == op := by
        refine List.find?_congr fun g hg => ?_
        cases hgo : g == op with
        | true =>
          have hgf : (g == first) ≠ true := fun he => by
            rw [same_trans ((h.2 g hg).symm h.1 he) hgo] at hf
            cases hf
          simp [hgf]
        | false => simp
      rw [hcongr]
      simp [hne]

/-- What a list without repetitions holds is in the list. -/
theorem mem_of_mem_eraseDups {batch : List Operation} {op : Operation}
    (h : op ∈ batch.eraseDups) : op ∈ batch := by
  induction batch using eraseDups_induction with
  | nil => simp at h
  | cons first rest ih =>
    rw [List.eraseDups_cons, List.mem_cons] at h
    rcases h with rfl | h
    · exact List.mem_cons_self
    · exact List.mem_cons_of_mem first (List.mem_of_mem_filter (ih h))

/-- A list without repetitions does not list one operation twice. -/
theorem nodup_eraseDups {batch : List Operation} (h : ∀ op ∈ batch, op.Comparable) :
    batch.eraseDups.Nodup := by
  induction batch using eraseDups_induction with
  | nil => simp
  | cons first rest ih =>
    rw [List.forall_mem_cons] at h
    rw [List.eraseDups_cons, List.nodup_cons]
    refine ⟨fun hm => ?_, ih fun g hg => h.2 g (List.mem_of_mem_filter hg)⟩
    have hp := (List.mem_filter.1 (mem_of_mem_eraseDups hm)).2
    simp [h.1.refl] at hp

/-- Among the operations with a property that the same operations share, the first of a kind is the
first of the batch. -/
theorem find?_filter_of_congr {p : Operation → Bool}
    (hp : ∀ a b : Operation, (a == b) = true → p a = p b) (batch : List Operation)
    (op : Operation) :
    (batch.filter p).find? (fun g => g == op) =
      if p op = true then batch.find? fun g => g == op else none := by
  rw [List.find?_filter]
  split
  · next ho =>
    refine List.find?_congr fun g _ => ?_
    by_cases hgo : (g == op) = true
    · simp [hgo, hp g op hgo, ho]
    · simp [hgo]
  · next ho =>
    rw [List.find?_eq_none]
    intro g _ hg
    rw [decide_eq_true_eq] at hg
    exact ho (hp g op hg.2 ▸ hg.1)

/-- A comparable operation stays so when it follows its target. -/
theorem Comparable.follow {op : Operation} (h : op.Comparable)
    (renamed : List (EntityId × String)) : (Merge.follow renamed op).Comparable := by
  unfold Merge.follow
  split
  · exact h.retarget _
  · exact h

end Operation

namespace Merge

/-- The place of an operation in a batch with one more in front. -/
theorem firstPlace_cons (first : Operation) (rest : List Operation) (op : Operation) :
    firstPlace (first :: rest) op =
      if (first == op) = true then 1
      else if firstPlace rest op = 0 then 0 else firstPlace rest op + 1 := by
  by_cases h : (first == op) = true
  · simp [firstPlace, List.findIdx?_cons, h]
  · cases hi : rest.findIdx? (fun g => g == op) <;> simp [firstPlace, List.findIdx?_cons, h, hi]

/-- An operation that is the same as one of the batch has a place. -/
theorem firstPlace_pos {batch : List Operation} {g op : Operation} (hg : g ∈ batch)
    (h : (g == op) = true) : 0 < firstPlace batch op := by
  cases hi : batch.findIdx? (fun g => g == op) with
  | none =>
    rw [List.findIdx?_eq_none_iff] at hi
    rw [hi g hg] at h
    cases h
  | some i => simp [firstPlace, hi]

/-- Without repetitions, the operations of a batch with a property that the same operations share
stand in the order of their first places. -/
theorem pairwise_firstPlace {p : Operation → Bool} {batch : List Operation}
    (h : ∀ op ∈ batch, op.Comparable)
    (hp : ∀ a ∈ batch, ∀ b ∈ batch, (a == b) = true → p a = p b) :
    (batch.filter p).eraseDups.Pairwise fun a b => firstPlace batch a < firstPlace batch b := by
  induction batch generalizing p with
  | nil => simp
  | cons first rest ih =>
    rw [List.forall_mem_cons] at h
    have hfirst : first ∈ first :: rest := List.mem_cons_self
    have htail : ∀ op ∈ rest, op ∈ first :: rest := fun _ => List.mem_cons_of_mem first
    -- The rest of the list without repetitions, whether its first operation has the property or not.
    let q : Operation → Bool := fun g => !g == first && p g
    have hq : ∀ a ∈ rest, ∀ b ∈ rest, (a == b) = true → q a = q b := by
      intro a ha b hb hab
      have hba := (h.2 a ha).symm (h.2 b hb) hab
      have hsame : (a == first) = (b == first) := by
        rw [Bool.eq_iff_iff]
        exact ⟨Operation.same_trans hba, Operation.same_trans hab⟩
      simp only [q, hsame, hp a (htail a ha) b (htail b hb) hab]
    have hmem : ∀ op ∈ (rest.filter q).eraseDups, op ∈ rest ∧ q op = true :=
      fun op hop => List.mem_filter.1 (Operation.mem_of_mem_eraseDups hop)
    have hplace : ∀ op ∈ (rest.filter q).eraseDups,
        firstPlace (first :: rest) op = firstPlace rest op + 1 ∧ 0 < firstPlace rest op := by
      intro op hop
      obtain ⟨hr, ho⟩ := hmem op hop
      have hpos := firstPlace_pos hr (h.2 op hr).refl
      have hne : ¬(first == op) = true := by
        intro hf
        simp [q, h.1.symm (h.2 op hr) hf] at ho
      rw [firstPlace_cons, if_neg hne, if_neg (Nat.ne_of_gt hpos)]
      exact ⟨rfl, hpos⟩
    have hrest : (rest.filter q).eraseDups.Pairwise
        fun a b => firstPlace (first :: rest) a < firstPlace (first :: rest) b := by
      refine (ih h.2 hq).imp_of_mem fun ha hb hab => ?_
      rw [(hplace _ ha).1, (hplace _ hb).1]
      omega
    cases hpf : p first with
    | true =>
      rw [List.filter_cons_of_pos hpf, List.eraseDups_cons, List.filter_filter]
      refine List.pairwise_cons.2 ⟨fun op hop => ?_, hrest⟩
      rw [(hplace op hop).1, firstPlace_cons, if_pos h.1.refl]
      have hpos := (hplace op hop).2
      omega
    | false =>
      have heq : rest.filter p = rest.filter q := by
        refine List.filter_congr fun g hg => ?_
        cases hgf : g == first with
        | true => simp [q, hgf, hp g (htail g hg) first hfirst hgf, hpf]
        | false => simp [q, hgf]
      rw [List.filter_cons_of_neg (by simp [hpf]), heq]
      exact hrest

/-- Appending each operation once appends those that are not there yet without repetitions. -/
theorem foldl_addOnce (batch found : List Operation) :
    batch.foldl addOnce found =
      found ++ (batch.filter fun op => !found.contains op).eraseDups := by
  induction batch generalizing found with
  | nil => simp
  | cons op batch ih =>
    rw [List.foldl_cons, ih, addOnce]
    cases h : found.contains op with
    | true => rw [if_pos rfl, List.filter_cons_of_neg (by simp [h])]
    | false =>
      have hfilter : batch.filter (fun g => !(found ++ [op]).contains g) =
          (batch.filter fun g => !found.contains g).filter fun g => !g == op := by
        rw [List.filter_filter]
        refine List.filter_congr fun g _ => ?_
        simp [Bool.and_comm]
      rw [if_neg Bool.false_ne_true, hfilter, List.filter_cons_of_pos (by simp [h]),
        List.eraseDups_cons, List.append_assoc, List.singleton_append]

/-- An operation that is there is not appended again. -/
theorem addOnce_addOnce {e : Operation} (he : e.Comparable) (found : List Operation) :
    addOnce (addOnce found e) e = addOnce found e := by
  cases h : found.contains e with
  | true => simp [addOnce, h]
  | false => simp [addOnce, h, he.refl]

/-- What a user operation that meets operations of the generator adds on either side. -/
theorem foldl_meet {e : Operation} (he : e.Comparable) (batch : List Operation)
    (found : Conflict) :
    batch.foldl (Conflict.meet e) found =
      { generated := (batch.filter fun g => g.sameKey e).foldl addOnce found.generated
        edited :=
          if batch.any (fun g => g.sameKey e) then addOnce found.edited e else found.edited } := by
  induction batch generalizing found with
  | nil => simp
  | cons g batch ih =>
    rw [List.foldl_cons, ih, Conflict.meet, Operation.isBlocking_eq_sameKey]
    cases h : g.sameKey e with
    | true => simp [h, addOnce_addOnce he]
    | false => simp [h]

/-- The index finds the operations of the generator that a user operation has a key in common
with. -/
theorem scan_ofBatch {e : Operation} (he : e.Comparable) (generated : List Operation)
    (found : Conflict) :
    Conflict.scan (TargetIndex.ofBatch generated) found e =
      { generated := (generated.filter fun g => g.sameKey e).foldl addOnce found.generated
        edited :=
          if generated.any (fun g => g.sameKey e) then addOnce found.edited e
          else found.edited } := by
  have hkey : ∀ g : Operation, (g.sameKey e && decide (g.target = e.target)) = g.sameKey e := by
    intro g
    cases h : g.sameKey e with
    | true => simp [Operation.target_eq_of_sameKey h]
    | false => rfl
  rw [Conflict.scan, TargetIndex.on_ofBatch, foldl_meet he, List.filter_filter, List.any_filter]
  simp only [hkey, Bool.and_comm _ (Operation.sameKey _ e)]

/-- What the user's operations find one after the other. -/
theorem foldl_scan {generated edited : List Operation} (he : ∀ e ∈ edited, e.Comparable)
    (found : Conflict) :
    edited.foldl (Conflict.scan (TargetIndex.ofBatch generated)) found =
      { generated := (edited.flatMap fun e => generated.filter fun g => g.sameKey e).foldl addOnce
          found.generated
        edited := (edited.filter fun e => generated.any fun g => g.sameKey e).foldl addOnce
          found.edited } := by
  induction edited generalizing found with
  | nil => rfl
  | cons e edited ih =>
    rw [List.forall_mem_cons] at he
    rw [List.foldl_cons, scan_ofBatch he.1, ih he.2]
    cases h : generated.any fun g => g.sameKey e with
    | true => simp [h, List.foldl_append]
    | false => simp [h, List.foldl_append]

/-- The operations of a batch that modify a key which the other side modifies, in the order of the
batch and without those that repeat an earlier one. -/
def involved (own other : List Operation) : List Operation :=
  (own.filter fun op => other.any op.sameKey).eraseDups

/-- An operation that is involved is one of the batch with a counterpart on the other side. -/
theorem exists_sameKey_of_mem_involved {own other : List Operation} {op : Operation}
    (hop : op ∈ involved own other) : op ∈ own ∧ ∃ g ∈ other, op.sameKey g = true := by
  obtain ⟨hm, ha⟩ := List.mem_filter.1 (Operation.mem_of_mem_eraseDups hop)
  exact ⟨hm, List.any_eq_true.1 ha⟩

/-- A batch has involved operations exactly when one has a counterpart on the other side. -/
theorem involved_ne_nil_iff (own other : List Operation) :
    involved own other ≠ [] ↔ ∃ op ∈ own, ∃ g ∈ other, op.sameKey g = true := by
  cases h : own.filter fun op => other.any op.sameKey with
  | nil =>
    have hnone : ∀ op ∈ own, ∀ g ∈ other, ¬op.sameKey g = true := by simpa using h
    simp only [involved, h, List.eraseDups_nil, ne_eq, not_true_eq_false, false_iff]
    rintro ⟨op, hop, g, hg, hs⟩
    exact hnone op hop g hg hs
  | cons op rest =>
    have hop : op ∈ own.filter fun op => other.any op.sameKey := h ▸ List.mem_cons_self
    obtain ⟨hm, ha⟩ := List.mem_filter.1 hop
    simp only [involved, h, List.eraseDups_cons, ne_eq, reduceCtorEq, not_false_eq_true, true_iff]
    exact ⟨op, hm, List.any_eq_true.1 ha⟩

/-- The first of a kind among what the user's operations find is the first of its kind that is
involved. -/
theorem find?_flatMap_sameKey (generated edited : List Operation) (op : Operation) :
    (edited.flatMap fun e => generated.filter fun g => g.sameKey e).find? (fun g => g == op) =
      (generated.filter fun g => edited.any g.sameKey).find? fun g => g == op := by
  have hany : ∀ a b : Operation, (a == b) = true → edited.any a.sameKey = edited.any b.sameKey :=
    fun a b hab => congrArg edited.any (funext (Operation.sameKey_congr hab))
  rw [Operation.find?_filter_of_congr hany]
  clear hany
  induction edited with
  | nil => simp
  | cons e edited ih =>
    have he : (generated.filter fun g => g.sameKey e).find? (fun g => g == op) =
        if op.sameKey e = true then generated.find? fun g => g == op else none :=
      Operation.find?_filter_of_congr (fun a b hab => Operation.sameKey_congr hab e) generated op
    rw [List.flatMap_cons, List.find?_append, he, ih, List.any_cons]
    cases op.sameKey e with
    | true => cases edited.any op.sameKey <;> simp
    | false => simp

/-- What the user's operations find of the generator's batch is involved in it. -/
theorem perm_involved {generated edited : List Operation}
    (hg : ∀ g ∈ generated, g.Comparable) :
    (edited.flatMap fun e => generated.filter fun g => g.sameKey e).eraseDups.Perm
      (involved generated edited) := by
  have hfound : ∀ g ∈ edited.flatMap fun e => generated.filter fun g => g.sameKey e,
      g.Comparable := by
    intro g hm
    obtain ⟨e, _, he⟩ := List.mem_flatMap.1 hm
    exact hg g (List.mem_of_mem_filter he)
  have hown : ∀ g ∈ generated.filter fun g => edited.any g.sameKey, g.Comparable :=
    fun g hm => hg g (List.mem_of_mem_filter hm)
  refine (List.perm_ext_iff_of_nodup (Operation.nodup_eraseDups hfound)
    (Operation.nodup_eraseDups hown)).2 fun op => ?_
  rw [Operation.mem_eraseDups_iff hfound, Operation.mem_eraseDups_iff hown,
    find?_flatMap_sameKey]

/-- Sorted by first places, what the user's operations find is what is involved. -/
theorem mergeSort_found {generated edited : List Operation}
    (hg : ∀ g ∈ generated, g.Comparable) :
    (edited.flatMap fun e => generated.filter fun g => g.sameKey e).eraseDups.mergeSort
        (fun a b => decide (firstPlace generated a ≤ firstPlace generated b)) =
      involved generated edited := by
  have hplaces : (involved generated edited).Pairwise
      fun a b => firstPlace generated a < firstPlace generated b :=
    pairwise_firstPlace hg fun a _ b _ hab =>
      congrArg edited.any (funext (Operation.sameKey_congr hab))
  have hperm :=
    (List.mergeSort_perm (edited.flatMap fun e => generated.filter fun g => g.sameKey e).eraseDups
      fun a b => decide (firstPlace generated a ≤ firstPlace generated b)).trans (perm_involved hg)
  have hnodup : ((involved generated edited).map (firstPlace generated)).Nodup :=
    (List.pairwise_map.2 hplaces).imp Nat.ne_of_lt
  refine hperm.eq_of_pairwise (fun a b ha hb hab hba => ?_) ?_ (hplaces.imp Nat.le_of_lt)
  · exact List.inj_on_of_nodup_map hnodup (hperm.mem_iff.1 ha) hb (Nat.le_antisymm hab hba)
  · refine (List.pairwise_mergeSort ?_ ?_ _).imp fun {a b} hab => of_decide_eq_true hab
    · intro a b c hab hbc
      rw [decide_eq_true_eq] at hab hbc ⊢
      omega
    · intro a b
      rw [Bool.or_eq_true, decide_eq_true_eq, decide_eq_true_eq]
      omega

/-- The conflict that is reported holds what is involved on each side. -/
theorem conflict?_ofBatch {generated edited : List Operation} (hg : ∀ g ∈ generated, g.Comparable)
    (he : ∀ e ∈ edited, e.Comparable) :
    conflict? (TargetIndex.ofBatch generated) generated edited =
      if involved edited generated = [] then none
      else some ⟨involved generated edited, involved edited generated⟩ := by
  have hedited : (edited.filter fun e => generated.any fun g => g.sameKey e) =
      edited.filter fun e => generated.any e.sameKey := by
    simp only [Operation.sameKey_comm]
  rw [conflict?, foldl_scan he, foldl_addOnce, foldl_addOnce, hedited]
  simp only [List.contains_nil, Bool.not_false, List.filter_true, List.nil_append]
  rw [mergeSort_found hg, ← involved]
  simp only [List.isEmpty_iff]

/-- An operation that was appended is there. -/
theorem addOnce_ne_nil (found : List Operation) (op : Operation) : addOnce found op ≠ [] := by
  unfold addOnce
  split
  · next h =>
    intro hnil
    simp [hnil] at h
  · simp

/-- When an operation of the user is found, so is one of the generator's. -/
def Conflict.Paired (found : Conflict) : Prop := found.edited ≠ [] → found.generated ≠ []

/-- Two operations that meet are found together. -/
theorem Conflict.Paired.meet {found : Conflict} (h : found.Paired) (e g : Operation) :
    (Conflict.meet e found g).Paired := by
  unfold Conflict.meet
  split
  · exact fun _ => addOnce_ne_nil found.generated g
  · exact h

/-- A conflict that is reported has operations on both sides. -/
theorem ne_nil_of_conflict? {index : TargetIndex} {generated edited : List Operation}
    {conflict : Conflict} (h : conflict? index generated edited = some conflict) :
    conflict.generated ≠ [] ∧ conflict.edited ≠ [] := by
  have hpaired : (edited.foldl (Conflict.scan index) ⟨[], []⟩).Paired := by
    refine List.foldlRecOn edited _ (fun hne => absurd rfl hne) fun found hfound e _ => ?_
    exact List.foldlRecOn (index.on e.target) _ hfound fun _ hpaired g _ => hpaired.meet e g
  unfold conflict? at h
  simp only at h
  split at h
  · cases h
  · next hedited =>
    cases h
    have hne : (edited.foldl (Conflict.scan index) ⟨[], []⟩).edited ≠ [] :=
      fun hnil => hedited (List.isEmpty_iff.2 hnil)
    refine ⟨fun hnil => hpaired hne ?_, hne⟩
    simpa using congrArg List.length hnil

/-- If no operation of the user is found, a user operation has met none with a key in common. -/
theorem foldl_meet_eq_nil {e : Operation} {batch : List Operation} {found : Conflict}
    (h : (batch.foldl (Conflict.meet e) found).edited = []) :
    found.edited = [] ∧ ∀ g ∈ batch, g.sameKey e = false := by
  induction batch generalizing found with
  | nil => exact ⟨h, by simp⟩
  | cons g batch ih =>
    obtain ⟨hnil, hrest⟩ := ih h
    rw [Conflict.meet, Operation.isBlocking_eq_sameKey] at hnil
    cases hs : g.sameKey e with
    | true =>
      rw [if_pos hs] at hnil
      exact absurd hnil (addOnce_ne_nil _ _)
    | false =>
      rw [if_neg (by simp [hs])] at hnil
      exact ⟨hnil, List.forall_mem_cons.2 ⟨hs, hrest⟩⟩

/-- If no operation of the user is found, none has a key in common with one of the generator's. -/
theorem foldl_scan_eq_nil {generated edited : List Operation} {found : Conflict}
    (h : (edited.foldl (Conflict.scan (TargetIndex.ofBatch generated)) found).edited = []) :
    found.edited = [] ∧ ∀ e ∈ edited, ∀ g ∈ generated, g.sameKey e = false := by
  induction edited generalizing found with
  | nil => exact ⟨h, by simp⟩
  | cons e edited ih =>
    obtain ⟨hnil, hrest⟩ := ih h
    rw [Conflict.scan, TargetIndex.on_ofBatch] at hnil
    obtain ⟨hfound, hmet⟩ := foldl_meet_eq_nil hnil
    refine ⟨hfound, List.forall_mem_cons.2 ⟨fun g hg => ?_, hrest⟩⟩
    cases hs : g.sameKey e with
    | true =>
      have ht := Operation.target_eq_of_sameKey hs
      rw [hmet g (List.mem_filter.2 ⟨hg, decide_eq_true ht⟩)] at hs
      cases hs
    | false => rfl

/-- Without a conflict no operations of the two sides have a key in common, NaN or not. -/
theorem sameKey_eq_false {Memory : Type} {renamer : Renamer Memory} {world : World}
    {generated edited : List Operation} {memory : Memory}
    (h : (detect renamer world generated edited memory).1.conflict = none) {g e : Operation}
    (hg : g ∈ generated) (he : e ∈ (detect renamer world generated edited memory).1.edited) :
    g.sameKey e = false := by
  have hconflict : conflict? (TargetIndex.ofBatch generated) generated
      (detect renamer world generated edited memory).1.edited = none := h
  unfold conflict? at hconflict
  simp only at hconflict
  split at hconflict
  · next hnil => exact (foldl_scan_eq_nil (List.isEmpty_iff.1 hnil)).2 e he g hg
  · cases hconflict

/-- On batches without NaN, and with distinct names in each map as reading makes them, the report of
a conflict is the pairwise definition. There is a conflict exactly when operations of both sides
modify one key of one entity, and it lists the operations of each side that have such a counterpart,
in the order of the batch and without those that repeat an earlier one. Neither list is empty, and
no operation of the user's addresses a new name. -/
theorem detect_conflict {Memory : Type} (renamer : Renamer Memory) (world : World)
    {generated edited : List Operation} (memory : Memory)
    (hw : ∀ op ∈ generated ++ edited, op.WellFormed)
    (hn : ∀ op ∈ generated ++ edited, op.NaNFree) :
    let report := (detect renamer world generated edited memory).1
    (report.conflict.isSome = true ↔
      ∃ g ∈ generated, ∃ e ∈ report.edited, g.sameKey e = true) ∧
    ∀ c, report.conflict = some c →
      c.generated = involved generated report.edited ∧
      c.edited = involved report.edited generated ∧
      c.generated ≠ [] ∧ c.edited ≠ [] ∧
      ∀ e ∈ c.edited, ∀ r ∈ report.renamed, e.target ≠ newName r := by
  intro report
  have hg : ∀ g ∈ generated, g.Comparable := fun g h =>
    ⟨hw g (List.mem_append_left _ h), hn g (List.mem_append_left _ h)⟩
  have he : ∀ e ∈ report.edited, e.Comparable := by
    intro e h
    obtain ⟨op, hop, rfl⟩ := List.mem_map.1 h
    have hc : op.Comparable :=
      ⟨hw op (List.mem_append_right _ hop), hn op (List.mem_append_right _ hop)⟩
    exact hc.follow _
  have hconflict : report.conflict = if involved report.edited generated = [] then none
      else some ⟨involved generated report.edited, involved report.edited generated⟩ :=
    conflict?_ofBatch hg he
  have hiff : involved report.edited generated ≠ [] ↔
      ∃ g ∈ generated, ∃ e ∈ report.edited, g.sameKey e = true := by
    rw [involved_ne_nil_iff]
    exact ⟨fun ⟨e, hem, g, hgm, hs⟩ => ⟨g, hgm, e, hem, Operation.sameKey_comm g e ▸ hs⟩,
      fun ⟨g, hgm, e, hem, hs⟩ => ⟨e, hem, g, hgm, Operation.sameKey_comm e g ▸ hs⟩⟩
  rw [hconflict, ← hiff]
  by_cases h : involved report.edited generated = []
  · simp [h]
  · rw [if_neg h]
    refine ⟨by simp [h], fun c hc => ?_⟩
    obtain rfl := Option.some.inj hc
    refine ⟨rfl, rfl, (involved_ne_nil_iff _ _).2 (hiff.1 h), h, fun e hem r hr => ?_⟩
    obtain ⟨-, g, hgm, hs⟩ := exists_sameKey_of_mem_involved hem
    rw [Operation.target_eq_of_sameKey hs]
    exact target_ne_newName hr (List.mem_append_left _ hgm)

/-- The user meets the generator's second key first, and a repeated operation is listed once. -/
theorem detect_conflict_reordered :
    let set (key : String) (i : Int64) : Operation :=
      .modify ⟨.character, "hero"⟩ key .equal (.int i)
    let sword : Operation := .create ⟨.item, "sword"⟩ []
    let generated := [sword, set "hp" 1, set "mp" 2, set "hp" 1]
    let edited := [sword, set "mp" 3, set "hp" 4]
    let report := (detect (.sequential "_") World.empty generated edited 1).1
    (∀ op ∈ generated ++ edited, op.WellFormed) ∧ (∀ op ∈ generated ++ edited, op.NaNFree) ∧
      report.renamed = [(⟨.item, "sword"⟩, "sword_1")] ∧
      ∃ c, report.conflict = some c ∧ c.generated = [set "hp" 1, set "mp" 2] ∧
        c.edited = [set "mp" 3, set "hp" 4] ∧
        ∀ e ∈ c.edited, ∀ r ∈ report.renamed, e.target ≠ newName r := by
  intro set sword generated edited report
  have hw : ∀ op ∈ generated ++ edited, op.WellFormed := by
    simp [generated, edited, sword, set, Operation.WellFormed, Value.WellFormed,
      Value.WellFormedEntries, Entries.Distinct, Entries.keys]
  have hn : ∀ op ∈ generated ++ edited, op.NaNFree := by
    simp [generated, edited, sword, set, Operation.NaNFree, Value.NaNFree, Value.NaNFreeEntries]
  have hrenamed : report.renamed = [(⟨.item, "sword"⟩, "sword_1")] := by
    subst report edited generated sword set
    rfl
  obtain ⟨hiff, hlists⟩ := detect_conflict (.sequential "_") World.empty 1 hw hn
  have hedited : report.edited =
      [.create ⟨.item, "sword_1"⟩ [], set "mp" 3, set "hp" 4] := by
    subst report edited generated sword set
    rfl
  obtain ⟨c, hc⟩ := Option.isSome_iff_exists.1 (hiff.2 ⟨set "hp" 1, by simp [generated],
    set "hp" 4, hedited ▸ by simp, by simp [set, Operation.sameKey]⟩)
  obtain ⟨hcg, hce, -, -, hnew⟩ := hlists c hc
  refine ⟨hw, hn, hrenamed, c, hc, hcg.trans ?_, hce.trans ?_, hnew⟩
  · rw [hedited]
    subst edited generated sword set
    rfl
  · rw [hedited]
    subst edited generated sword set
    rfl

end Merge

end BranchingStory
