import BranchingStory.Proofs.Tree.Walk

/-!
# Ways up to the root

The way up from a block leads over its parent and the parent's parent to the root. Where the links
fit together there is only one such way, and no block is on it twice: it would lie above itself. So
a way up has no more blocks than there are, and every walk down from a block ends before that.
-/

namespace BranchingStory.BlockNode

variable {place? : BlockId → Option BlockNode} {root id : BlockId} {line other : List BlockId}

/-- A way up to the root: each block is a child of the next. -/
inductive WayUp (place? : BlockId → Option BlockNode) (root : BlockId) : List BlockId → Prop
  /-- The root is at the end of the way. -/
  | root : WayUp place? root [root]
  /-- The way up from a child leads over its parent. -/
  | child {id child : BlockId} {line : List BlockId} {n : BlockNode}
    (h : WayUp place? root (id :: line)) (hn : place? id = some n) (hchild : child ∈ n.children) :
    WayUp place? root (child :: id :: line)

/-- A block below the root has a way up. -/
theorem Below.exists_wayUp (h : Below place? root id) :
    ∃ line, WayUp place? root (id :: line) := by
  induction h with
  | self => exact ⟨[], .root⟩
  | child _ hn hchild ih =>
    obtain ⟨line, hline⟩ := ih
    exact ⟨_, hline.child hn hchild⟩

/-- Each block on a way up has a way of its own, which is shorter. -/
theorem WayUp.exists_of_mem (h : WayUp place? root line) (hid : id ∈ line) :
    ∃ rest, WayUp place? root (id :: rest) ∧ rest.length < line.length := by
  induction h with
  | root =>
    obtain rfl := List.mem_singleton.1 hid
    exact ⟨[], .root, Nat.zero_lt_one⟩
  | child h hn hchild ih =>
    rcases List.mem_cons.1 hid with rfl | hid
    · exact ⟨_, h.child hn hchild, Nat.lt_succ_self _⟩
    · obtain ⟨rest, hrest, hlt⟩ := ih hid
      exact ⟨rest, hrest, Nat.lt_succ_of_lt hlt⟩

namespace Linked

variable (h : Linked place? root)
include h

/-- A block has one way up only. -/
theorem wayUp_unique (hline : WayUp place? root (id :: line))
    (hother : WayUp place? root (id :: other)) : line = other := by
  induction line generalizing id other with
  | nil =>
    cases hline
    cases hother with
    | root => rfl
    | child _ hn hchild => exact absurd (mem_kids_iff.2 ⟨_, hn, hchild⟩) (h.root_notMem_kids _)
  | cons parent line ih =>
    cases hline with
    | child hup hn hchild =>
      have hkid : id ∈ kids place? parent := mem_kids_iff.2 ⟨_, hn, hchild⟩
      cases hother with
      | root => exact absurd hkid (h.root_notMem_kids parent)
      | child hup' hn' hchild' =>
        obtain rfl := h.kids_unique hkid (mem_kids_iff.2 ⟨_, hn', hchild'⟩)
        rw [ih hup hup']

/-- No block is on a way up twice. -/
theorem nodup_wayUp (hline : WayUp place? root line) : line.Nodup := by
  induction hline with
  | root => exact List.nodup_singleton root
  | child hup hn hchild ih =>
    refine List.nodup_cons.2 ⟨fun hmem => ?_, ih⟩
    -- The child would have a way up that is shorter than its way over the parent.
    obtain ⟨rest, hrest, hlt⟩ := hup.exists_of_mem hmem
    rw [h.wayUp_unique hrest (hup.child hn hchild)] at hlt
    exact Nat.lt_irrefl _ hlt

/-- Every block on a way up is registered. -/
theorem registered_of_wayUp (hline : WayUp place? root line) :
    ∀ id ∈ line, ∃ n, place? id = some n := by
  induction hline with
  | root =>
    obtain ⟨n, hn, -⟩ := h.rooted
    exact fun id hid => ⟨n, List.mem_singleton.1 hid ▸ hn⟩
  | child _ hn hchild ih =>
    obtain ⟨m, hm, -⟩ := h.child hn hchild
    exact List.forall_mem_cons.2 ⟨⟨m, hm⟩, ih⟩

/-- A way up has at most as many blocks as there are. -/
theorem length_wayUp_le {ids : List BlockId} (hids : ∀ {id}, id ∈ ids ↔ ∃ n, place? id = some n)
    (hline : WayUp place? root line) : line.length ≤ ids.length :=
  ((h.nodup_wayUp hline).subperm fun id hid =>
    hids.2 (h.registered_of_wayUp hline id hid)).length_le

end Linked

end BranchingStory.BlockNode
