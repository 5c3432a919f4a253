import BranchingStory.Proofs.Tree.Links
import Mathlib.Data.List.Count
import Mathlib.Data.List.Perm.Subperm

/-!
# Walks down from the root

A walk along the children keeps a list of blocks to be visited and stops at a limit. What it has met
and what is left are, as multisets, the start and all children of what it has met. So a walk from
the root of linked blocks that list no child twice meets none twice, and a walk that ends meets all
blocks below the root. Counting what a walk meets therefore finds out about a block that is cut off,
unless some other block is listed twice.
-/

namespace BranchingStory.BlockNode

variable {place? : BlockId → Option BlockNode} {root id parent : BlockId} {limit : Nat}

/-- The children of a block; none if it is not registered. -/
def kids (place? : BlockId → Option BlockNode) (id : BlockId) : List BlockId :=
  (place? id).elim [] BlockNode.children

/-- A walk along the children: the blocks that it meets, and those that are left at the limit. -/
def walk (place? : BlockId → Option BlockNode) : Nat → List BlockId → List BlockId × List BlockId
  | 0, stack => ([], stack)
  | _ + 1, [] => ([], [])
  | limit + 1, id :: rest =>
    let r := walk place? limit (kids place? id ++ rest)
    (id :: r.1, r.2)

/-- A registered block has its own children. -/
theorem kids_of_place? {n : BlockNode} (hn : place? id = some n) : kids place? id = n.children := by
  rw [kids, hn, Option.elim_some]

/-- A child of a block is listed by it. -/
theorem mem_kids_iff {child : BlockId} :
    child ∈ kids place? id ↔ ∃ n, place? id = some n ∧ child ∈ n.children := by
  rw [kids]
  cases place? id <;> simp

/-- What a walk has met and what is left are the start and the children of what it has met. -/
theorem perm_walk (place? : BlockId → Option BlockNode) (limit : Nat) (stack : List BlockId) :
    ((walk place? limit stack).1 ++ (walk place? limit stack).2).Perm
      (stack ++ (walk place? limit stack).1.flatMap (kids place?)) := by
  induction limit generalizing stack with
  | zero => simp [walk]
  | succ limit ih =>
    cases stack with
    | nil => simp [walk]
    | cons id rest =>
      -- The first block is met, and its children take its place.
      have hrest := ih (kids place? id ++ rest)
      rw [List.append_assoc] at hrest
      simp only [walk, List.cons_append, List.flatMap_cons]
      exact .cons id (hrest.trans (List.perm_append_comm_assoc ..))

/-- Nothing is left by a walk that does not reach the limit. -/
theorem left_walk {stack : List BlockId} (h : (walk place? limit stack).1.length < limit) :
    (walk place? limit stack).2 = [] := by
  induction limit generalizing stack with
  | zero => cases h
  | succ limit ih =>
    cases stack with
    | nil => rfl
    | cons id rest => exact ih (Nat.lt_of_succ_lt_succ h)

private theorem below_of_mem_walk_stack {stack : List BlockId}
    (hstack : ∀ id ∈ stack, Below place? root id) :
    ∀ id ∈ (walk place? limit stack).1 ++ (walk place? limit stack).2, Below place? root id := by
  induction limit generalizing stack with
  | zero => simpa [walk] using hstack
  | succ limit ih =>
    cases stack with
    | nil => simp [walk]
    | cons id rest =>
      have hid : Below place? root id := hstack id List.mem_cons_self
      have hnext : ∀ key ∈ kids place? id ++ rest, Below place? root key := by
        intro key hkey
        rcases List.mem_append.1 hkey with hkey | hkey
        · obtain ⟨n, hn, hchild⟩ := mem_kids_iff.1 hkey
          exact hid.child hn hchild
        · exact hstack key (List.mem_cons_of_mem _ hkey)
      intro key hkey
      rcases List.mem_cons.1 hkey with rfl | hkey
      · exact hid
      · exact ih hnext key hkey

/-- A walk from the root stays below it. -/
theorem below_of_mem_walk
    (h : id ∈ (walk place? limit [root]).1 ++ (walk place? limit [root]).2) :
    Below place? root id :=
  below_of_mem_walk_stack (fun _ hkey => List.mem_singleton.1 hkey ▸ .self) id h

/-- A walk from the root that ends meets all blocks below the root. -/
theorem mem_walk_of_below (hleft : (walk place? limit [root]).2 = []) (h : Below place? root id) :
    id ∈ (walk place? limit [root]).1 := by
  have hperm := perm_walk place? limit [root]
  rw [hleft, List.append_nil] at hperm
  induction h with
  | self => exact hperm.mem_iff.2 List.mem_cons_self
  | child h hn hchild ih =>
    have hkid := List.mem_flatMap.2 ⟨_, ih, mem_kids_iff.2 ⟨_, hn, hchild⟩⟩
    exact hperm.mem_iff.2 (List.mem_append_right _ hkid)

section Linked

variable (h : Linked place? root)
include h

/-- The root is no child. -/
theorem Linked.root_notMem_kids (id : BlockId) : root ∉ kids place? id := by
  intro hroot
  obtain ⟨n, hn, hchild⟩ := mem_kids_iff.1 hroot
  obtain ⟨m, hm, hparent⟩ := h.child hn hchild
  obtain ⟨k, hk, hnone⟩ := h.rooted
  obtain rfl := Option.some.inj (hm.symm.trans hk)
  rw [hnone] at hparent
  cases hparent

/-- A block is a child of one block only. -/
theorem Linked.kids_unique {child : BlockId} (hid : child ∈ kids place? id)
    (hparent : child ∈ kids place? parent) : id = parent := by
  obtain ⟨n, hn, hchild⟩ := mem_kids_iff.1 hid
  obtain ⟨p, hp, hchild'⟩ := mem_kids_iff.1 hparent
  obtain ⟨m, hm, hup⟩ := h.child hn hchild
  obtain ⟨k, hk, hup'⟩ := h.child hp hchild'
  obtain rfl := Option.some.inj (hm.symm.trans hk)
  exact Option.some.inj (hup.symm.trans hup')

/-- Every block below the root is registered. -/
theorem Linked.registered (hid : Below place? root id) : ∃ n, place? id = some n := by
  cases hid with
  | self =>
    obtain ⟨n, hn, -⟩ := h.rooted
    exact ⟨n, hn⟩
  | child _ hn hchild =>
    obtain ⟨m, hm, -⟩ := h.child hn hchild
    exact ⟨m, hm⟩

/-- Among the children of a list of blocks, a child that is listed once is as often as its
parent is among the blocks. -/
theorem Linked.count_flatMap_kids {child : BlockId} (hchild : child ∈ kids place? parent)
    (hnodup : (kids place? parent).Nodup) (ids : List BlockId) :
    (ids.flatMap (kids place?)).count child = ids.count parent := by
  induction ids with
  | nil => rfl
  | cons id ids ih =>
    rw [List.flatMap_cons, List.count_append, List.count_cons, ih]
    by_cases hid : id = parent
    · subst hid
      rw [List.count_eq_one_of_mem hnodup hchild]
      simp [Nat.add_comm]
    · have hzero : (kids place? id).count child = 0 :=
        List.count_eq_zero_of_not_mem fun hmem => hid (h.kids_unique hmem hchild)
      simp [hzero, hid]

variable (hnodup : ∀ id, (kids place? id).Nodup)
include hnodup

/-- A walk from the root meets no block twice if no child is listed twice. -/
theorem Linked.nodup_walk (limit : Nat) :
    ((walk place? limit [root]).1 ++ (walk place? limit [root]).2).Nodup := by
  have hperm := perm_walk place? limit [root]
  have hcount : ∀ {id}, Below place? root id →
      ((walk place? limit [root]).1 ++ (walk place? limit [root]).2).count id ≤ 1 := by
    intro id hid
    -- On the way down each block is met as often as its parent, and the root once.
    induction hid with
    | self =>
      have hzero : ((walk place? limit [root]).1.flatMap (kids place?)).count root = 0 :=
        List.count_eq_zero_of_not_mem fun hmem => by
          obtain ⟨key, -, hkey⟩ := List.mem_flatMap.1 hmem
          exact h.root_notMem_kids key hkey
      rw [hperm.count_eq, List.count_append, hzero]
      simp
    | @child id child n _ hn hchild ih =>
      have hkid : child ∈ kids place? id := mem_kids_iff.2 ⟨n, hn, hchild⟩
      have hne : root ≠ child := fun he => h.root_notMem_kids id (he ▸ hkid)
      rw [hperm.count_eq, List.count_append, h.count_flatMap_kids hkid (hnodup id),
        List.count_eq_zero_of_not_mem (by simpa using hne.symm)]
      rw [List.count_append] at ih
      omega
  refine List.nodup_iff_count_le_one.2 fun id => ?_
  by_cases hid : id ∈ (walk place? limit [root]).1 ++ (walk place? limit [root]).2
  · exact hcount (below_of_mem_walk hid)
  · rw [List.count_eq_zero_of_not_mem hid]
    exact Nat.zero_le 1

end Linked

/-- The children of every block are listed once if those of the registered ones are. -/
theorem nodup_kids (h : ∀ {id n}, place? id = some n → n.children.Nodup) (id : BlockId) :
    (kids place? id).Nodup := by
  rw [kids]
  cases hn : place? id with
  | none => exact List.nodup_nil
  | some n => exact h hn

section Registered

variable {ids : List BlockId} (hids : ∀ {id}, id ∈ ids ↔ ∃ n, place? id = some n)
include hids

/-- A walk from the root meets registered blocks. -/
theorem Linked.walk_subset (h : Linked place? root) (limit : Nat) :
    (walk place? limit [root]).1 ⊆ ids := by
  intro id hid
  exact hids.2 (h.registered (below_of_mem_walk (List.mem_append_left _ hid)))

/-- A walk from the root of a tree meets as many blocks as there are, and one step more would not
change that. -/
theorem IsTree.length_walk (h : IsTree place? root) (hnodup : ids.Nodup) :
    (walk place? (ids.length + 1) [root]).1.length = ids.length := by
  have hwalk := (List.nodup_append.1 (h.nodup_walk (nodup_kids h.nodup) (ids.length + 1))).1
  have hle : (walk place? (ids.length + 1) [root]).1.length ≤ ids.length :=
    (hwalk.subperm (h.walk_subset hids _)).length_le
  have hleft := left_walk (Nat.lt_succ_of_le hle)
  have hsub : ids ⊆ (walk place? (ids.length + 1) [root]).1 := by
    intro id hid
    obtain ⟨n, hn⟩ := hids.1 hid
    exact mem_walk_of_below hleft (h.below hn)
  exact Nat.le_antisymm hle (hnodup.subperm hsub).length_le

variable (hlength : (walk place? (ids.length + 1) [root]).1.length = ids.length)
include hlength

/-- Linked blocks that list no child twice are a tree if a walk from the root meets as many as there
are. -/
theorem Linked.isTree_of_nodup (h : Linked place? root)
    (hchildren : ∀ {id n}, place? id = some n → n.children.Nodup) : IsTree place? root := by
  refine ⟨h, hchildren, fun {id n} hn => ?_⟩
  have hwalk := (List.nodup_append.1 (h.nodup_walk (nodup_kids hchildren) (ids.length + 1))).1
  have hperm := (hwalk.subperm (h.walk_subset hids _)).perm_of_length_le (Nat.le_of_eq hlength.symm)
  have hmem := hperm.mem_iff.2 (hids.2 ⟨n, hn⟩)
  exact below_of_mem_walk (List.mem_append_left _ hmem)

/-- Linked blocks that are all below the root are a tree if a walk from the root meets as many as
there are. -/
theorem Linked.isTree_of_below (h : Linked place? root) (hnodup : ids.Nodup)
    (hbelow : ∀ {id n}, place? id = some n → Below place? root id) : IsTree place? root := by
  refine ⟨h, fun {id n} hn => ?_, hbelow⟩
  have hleft := left_walk (Nat.lt_succ_of_le (Nat.le_of_eq hlength))
  have hmem : ∀ {key m}, place? key = some m → key ∈ (walk place? (ids.length + 1) [root]).1 :=
    fun hm => mem_walk_of_below hleft (hbelow hm)
  have hsub : ids ⊆ (walk place? (ids.length + 1) [root]).1 := by
    intro key hkey
    obtain ⟨m, hm⟩ := hids.1 hkey
    exact hmem hm
  -- The blocks that the walk meets are exactly the registered ones, so it meets none twice.
  have hwalk : (walk place? (ids.length + 1) [root]).1.Nodup :=
    ((hnodup.subperm hsub).perm_of_length_le (Nat.le_of_eq hlength)).nodup_iff.1 hnodup
  have hperm := perm_walk place? (ids.length + 1) [root]
  rw [hleft, List.append_nil] at hperm
  have hkids := (List.nodup_append.1 (hperm.nodup_iff.1 hwalk)).2.1
  rw [← kids_of_place? hn]
  exact (List.nodup_flatMap.1 hkids).1 id (hmem hn)

end Registered

end BranchingStory.BlockNode
