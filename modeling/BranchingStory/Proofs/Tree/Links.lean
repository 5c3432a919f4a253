import BranchingStory.Story.Snapshot
import Mathlib.Data.List.Nodup
import Mathlib.Data.Option.Basic
import Mathlib.Logic.Function.Basic

/-!
# Trees of blocks

The links of a block are in two places: it names its parent, and the parent lists it. Blocks are a
tree when both sides fit together, no block is listed twice, each selection is that of a child, and
every block is met on the way down from the root. A tree stays one when no links change, and when a
block gets a new child.
-/

namespace BranchingStory

namespace BlockNode

variable {place? other? : BlockId → Option BlockNode} {root top id parent : BlockId}
  {n m : BlockNode}

/-- What is selected is a child, and something is selected as soon as there are children. -/
structure SelectionFits (n : BlockNode) : Prop where
  /-- Nothing is selected exactly when there are no children. -/
  none_iff : n.selected = none ↔ n.children = []
  /-- The selected position is that of a child. -/
  lt_length : ∀ i, n.selected = some i → i < n.children.length

/-- A block is met on the way down from another one along the children. -/
inductive Below (place? : BlockId → Option BlockNode) (top : BlockId) : BlockId → Prop
  /-- The way starts at the block itself. -/
  | self : Below place? top top
  /-- A child of a block that is met is met as well. -/
  | child {id child : BlockId} {n : BlockNode} (h : Below place? top id) (hn : place? id = some n)
    (hchild : child ∈ n.children) : Below place? top child

/-- The links of the blocks fit together. -/
structure Linked (place? : BlockId → Option BlockNode) (root : BlockId) : Prop where
  /-- Every block is registered under its own id. -/
  id_eq : ∀ {id n}, place? id = some n → n.id = id
  /-- The root is registered and has no parent. -/
  rooted : ∃ n, place? root = some n ∧ n.parent = none
  /-- Every other block has a registered parent that lists it. -/
  parent : ∀ {id n}, place? id = some n → id ≠ root →
    ∃ parent m, n.parent = some parent ∧ place? parent = some m ∧ id ∈ m.children
  /-- Every listed child is registered and has the block as its parent. -/
  child : ∀ {id n child}, place? id = some n → child ∈ n.children →
    ∃ m, place? child = some m ∧ m.parent = some id
  /-- Every selection is that of a child. -/
  selection : ∀ {id n}, place? id = some n → n.SelectionFits

/-- The blocks are a tree that grows from the root. -/
structure IsTree (place? : BlockId → Option BlockNode) (root : BlockId) : Prop extends
    Linked place? root where
  /-- No block lists a child twice. -/
  nodup : ∀ {id n}, place? id = some n → n.children.Nodup
  /-- Every block is met on the way down from the root. -/
  below : ∀ {id n}, place? id = some n → Below place? root id

/-- In a tree the parent of a block lists it exactly once. -/
theorem IsTree.count_parent (h : IsTree place? root) (hn : place? id = some n) (hne : id ≠ root) :
    ∃ parent m, n.parent = some parent ∧ place? parent = some m ∧ m.children.count id = 1 := by
  obtain ⟨parent, m, hparent, hm, hmem⟩ := h.parent hn hne
  exact ⟨parent, m, hparent, hm, List.count_eq_one_of_mem (h.nodup hm) hmem⟩

/-- A root alone is a tree. -/
theorem IsTree.alone (hid : n.id = root) (hparent : n.parent = none) (hchildren : n.children = [])
    (hselected : n.selected = none) :
    IsTree (Function.update (fun _ => none) root (some n)) root := by
  have hplace : ∀ {id m}, Function.update (fun _ => none) root (some n) id = some m →
      id = root ∧ m = n := by
    intro id m hm
    by_cases hid : id = root
    · subst hid
      rw [Function.update_self] at hm
      exact ⟨rfl, (Option.some.inj hm).symm⟩
    · rw [Function.update_of_ne hid] at hm
      cases hm
  refine ⟨⟨fun {id m} hm => ?_, ⟨n, Function.update_self .., hparent⟩, fun {id m} hm hne => ?_,
    fun {id m child} hm hchild => ?_, fun {id m} hm => ?_⟩, fun {id m} hm => ?_,
    fun {id m} hm => ?_⟩
  all_goals obtain ⟨rfl, rfl⟩ := hplace hm
  · exact hid
  · exact absurd rfl hne
  · rw [hchildren] at hchild
    cases hchild
  · exact ⟨by simp [hselected, hchildren], by simp [hselected]⟩
  · rw [hchildren]
    exact List.nodup_nil
  · exact .self

/-- Every block stays where it is, and it keeps its parent and its children. -/
def Grows (place? other? : BlockId → Option BlockNode) : Prop :=
  ∀ {id n}, place? id = some n →
    ∃ m, other? id = some m ∧ m.parent = n.parent ∧ n.children ⊆ m.children

/-- A way down stays one when the blocks grow. -/
theorem Below.grow (h : Below place? top id) (hgrows : Grows place? other?) :
    Below other? top id := by
  induction h with
  | self => exact .self
  | child h hn hchild ih =>
    obtain ⟨m, hm, -, hchildren⟩ := hgrows hn
    exact ih.child hm (hchildren hchild)

/-- The root stays without a parent when the blocks grow. -/
theorem Linked.rooted_grow (h : Linked place? root) (hgrows : Grows place? other?) :
    ∃ n, other? root = some n ∧ n.parent = none := by
  obtain ⟨n, hn, hparent⟩ := h.rooted
  obtain ⟨m, hm, hparent', -⟩ := hgrows hn
  exact ⟨m, hm, hparent'.trans hparent⟩

/-- The parent of a block still lists it when the blocks grow. -/
theorem Linked.parent_grow (h : Linked place? root) (hgrows : Grows place? other?)
    (hn : place? id = some n) (hne : id ≠ root) :
    ∃ parent m, n.parent = some parent ∧ other? parent = some m ∧ id ∈ m.children := by
  obtain ⟨parent, m, hparent, hm, hmem⟩ := h.parent hn hne
  obtain ⟨k, hk, -, hchildren⟩ := hgrows hm
  exact ⟨parent, k, hparent, hk, hchildren hmem⟩

/-- The children of a block still have it as their parent when the blocks grow. -/
theorem Linked.child_grow (h : Linked place? root) (hgrows : Grows place? other?) {child : BlockId}
    (hn : place? id = some n) (hchild : child ∈ n.children) :
    ∃ m, other? child = some m ∧ m.parent = some id := by
  obtain ⟨m, hm, hparent⟩ := h.child hn hchild
  obtain ⟨k, hk, hparent', -⟩ := hgrows hm
  exact ⟨k, hk, hparent'.trans hparent⟩

/-- A block before and after a change that leaves its links as they are. -/
structure SameLinks (n m : BlockNode) : Prop where
  /-- The id is the same. -/
  id_eq : m.id = n.id
  /-- The parent is the same. -/
  parent_eq : m.parent = n.parent
  /-- The children are the same. -/
  children_eq : m.children = n.children
  /-- A selection that fits still does. -/
  selection : n.SelectionFits → m.SelectionFits

/-- A tree stays a tree when no links change. -/
theorem IsTree.congr (h : IsTree place? root)
    (hsame : ∀ id, Option.Rel SameLinks (place? id) (other? id)) : IsTree other? root := by
  have hgrows : Grows place? other? := by
    intro id n hn
    have hrel := hsame id
    rw [hn] at hrel
    cases hm : other? id <;> rw [hm] at hrel <;> cases hrel
    next m hlinks => exact ⟨m, rfl, hlinks.parent_eq, hlinks.children_eq ▸ List.Subset.refl _⟩
  have hback : ∀ {id m}, other? id = some m → ∃ n, place? id = some n ∧ n.SameLinks m := by
    intro id m hm
    have hrel := hsame id
    rw [hm] at hrel
    cases hn : place? id <;> rw [hn] at hrel <;> cases hrel
    next n hlinks => exact ⟨n, rfl, hlinks⟩
  refine ⟨⟨fun {id m} hm => ?_, h.rooted_grow hgrows, fun {id m} hm hne => ?_,
    fun {id m child} hm hchild => ?_, fun {id m} hm => ?_⟩, fun {id m} hm => ?_,
    fun {id m} hm => ?_⟩
  all_goals obtain ⟨n, hn, hlinks⟩ := hback hm
  · exact hlinks.id_eq.trans (h.id_eq hn)
  · exact hlinks.parent_eq ▸ h.parent_grow hgrows hn hne
  · exact h.child_grow hgrows hn (hlinks.children_eq ▸ hchild)
  · exact hlinks.selection (h.selection hn)
  · exact hlinks.children_eq ▸ h.nodup hn
  · exact (h.below hn).grow hgrows

/-- A tree stays a tree when one block changes and its links do not. -/
theorem IsTree.update (h : IsTree place? root) (hn : place? id = some n) (hlinks : n.SameLinks m) :
    IsTree (Function.update place? id (some m)) root := by
  refine h.congr fun key => ?_
  by_cases hkey : key = id
  · subst hkey
    rw [hn, Function.update_self]
    exact .some hlinks
  · rw [Function.update_of_ne hkey]
    cases place? key with
    | none => exact .none
    | some k => exact .some ⟨rfl, rfl, rfl, fun hfits => hfits⟩

/-- The place of a new child. -/
def leaf (parent id : BlockId) : BlockNode := ⟨id, some parent, [], none, .loading⟩

/-- The place of a block with a new child, which becomes the one that the story follows. -/
def attach (n : BlockNode) (id : BlockId) : BlockNode :=
  { n with children := n.children ++ [id], selected := some n.children.length }

/-- The places with a new child of a block. -/
def graft (place? : BlockId → Option BlockNode) (n : BlockNode) (parent id : BlockId) :
    BlockId → Option BlockNode :=
  Function.update (Function.update place? id (some (leaf parent id))) parent (some (n.attach id))

section Graft

variable (hn : place? parent = some n) (hnew : place? id = none)

include hn hnew in
/-- The new child is at its place. -/
theorem graft_leaf : graft place? n parent id id = some (leaf parent id) := by
  have hne : id ≠ parent := by
    rintro rfl
    rw [hnew] at hn
    cases hn
  rw [graft, Function.update_of_ne hne, Function.update_self]

/-- The block with the new child is at its place. -/
theorem graft_parent (place? : BlockId → Option BlockNode) (n : BlockNode) (parent id : BlockId) :
    graft place? n parent id parent = some (n.attach id) := Function.update_self ..

/-- Where a block stands after a new child. -/
theorem graft_cases {key : BlockId} {k : BlockNode} (hk : graft place? n parent id key = some k) :
    (key = parent ∧ k = n.attach id) ∨ (key = id ∧ k = leaf parent id) ∨ place? key = some k := by
  by_cases hparent : key = parent
  · subst hparent
    exact .inl ⟨rfl, Option.some.inj (hk.symm.trans (graft_parent ..))⟩
  · rw [graft, Function.update_of_ne hparent] at hk
    by_cases hid : key = id
    · subst hid
      rw [Function.update_self] at hk
      exact .inr (.inl ⟨rfl, (Option.some.inj hk).symm⟩)
    · rw [Function.update_of_ne hid] at hk
      exact .inr (.inr hk)

include hn hnew in
/-- With a new child the blocks grow. -/
theorem grows_graft : Grows place? (graft place? n parent id) := by
  intro key m hm
  by_cases hparent : key = parent
  · subst hparent
    obtain rfl : n = m := Option.some.inj (hn.symm.trans hm)
    exact ⟨_, graft_parent .., rfl, List.subset_append_left ..⟩
  · have hid : key ≠ id := by
      rintro rfl
      rw [hnew] at hm
      cases hm
    refine ⟨m, ?_, rfl, List.Subset.refl _⟩
    rw [graft, Function.update_of_ne hparent, Function.update_of_ne hid, hm]

/-- A new child under a block of a tree leaves a tree. -/
theorem IsTree.graft (h : IsTree place? root) (hn : place? parent = some n)
    (hnew : place? id = none) : IsTree (graft place? n parent id) root := by
  have hgrows : Grows place? (BlockNode.graft place? n parent id) := grows_graft hn hnew
  have hid : n.id = parent := h.id_eq hn
  have hlisted : parent ≠ root → ∃ up m, n.parent = some up ∧
      BlockNode.graft place? n parent id up = some m ∧ parent ∈ m.children :=
    h.parent_grow hgrows hn
  have hmem : id ∈ (n.attach id).children := List.mem_append_right _ List.mem_cons_self
  have hfresh : id ∉ n.children := by
    intro hmem
    obtain ⟨m, hm, -⟩ := h.child hn hmem
    rw [hnew] at hm
    cases hm
  have hnodup : (n.children ++ [id]).Nodup := by
    rw [← List.concat_eq_append]
    exact List.Nodup.concat hfresh (h.nodup hn)
  refine ⟨⟨fun {key k} hk => ?_, h.rooted_grow hgrows, fun {key k} hk hne => ?_,
    fun {key k child} hk hchild => ?_, fun {key k} hk => ?_⟩, fun {key k} hk => ?_,
    fun {key k} hk => ?_⟩
  all_goals obtain ⟨rfl, rfl⟩ | ⟨rfl, rfl⟩ | hm := graft_cases hk
  · exact hid
  · rfl
  · exact h.id_eq hm
  · exact hlisted hne
  · exact ⟨parent, _, rfl, graft_parent .., hmem⟩
  · exact h.parent_grow hgrows hm hne
  · rcases List.mem_append.1 hchild with hchild | hchild
    · exact h.child_grow hgrows hn hchild
    · obtain rfl := List.mem_singleton.1 hchild
      exact ⟨_, graft_leaf hn hnew, rfl⟩
  · cases hchild
  · exact h.child_grow hgrows hm hchild
  · exact ⟨by simp [attach], by simp [attach]⟩
  · exact ⟨by simp [leaf], by simp [leaf]⟩
  · exact h.selection hm
  · exact hnodup
  · exact List.nodup_nil
  · exact h.nodup hm
  · exact (h.below hn).grow hgrows
  · exact ((h.below hn).grow hgrows).child (graft_parent ..) hmem
  · exact (h.below hm).grow hgrows

end Graft

end BlockNode

end BranchingStory
