import BranchingStory.Proofs.Story.Tree
import BranchingStory.Proofs.Tree.Ancestry
import BranchingStory.Story.Path
import Mathlib.Data.List.Chain

/-!
# Story lines of a tree

The blocks of every run are a tree, so both walks of a story line come to their ends. The way down
along the selected children extends a way up to the root, which has no more blocks than there are;
the limit is not reached before a leaf. The way up from there leads back over the same blocks.
-/

namespace BranchingStory

open BlockNode

/-- A block that follows no child has none, if its selection is that of a child. -/
theorem Block.children_of_selectedChild? {b : Block} (hfits : b.node.SelectionFits)
    (h : b.selectedChild? = none) : b.children = [] := by
  refine hfits.none_iff.1 ?_
  cases hselected : b.selected with
  | none => exact hselected
  | some i =>
    have hlt : i < b.children.length := hfits.lt_length i hselected
    rw [selectedChild?, hselected, Option.bind_some, List.getElem?_eq_getElem hlt] at h
    cases h

/-- The child that a block follows is the one at the selected position. -/
theorem Block.selectedChild?_eq_some_iff {b : Block} {child : BlockId} :
    b.selectedChild? = some child ↔ ∃ i, b.selected = some i ∧ b.children[i]? = some child :=
  Option.bind_eq_some_iff

namespace Story

variable {Memory : Type} {s : Story Memory} {id : BlockId} {line : List BlockId}

/-- One block is the parent of the other. -/
def IsParent (s : Story Memory) (parent child : BlockId) : Prop :=
  ∃ b, s.get child = .ok b ∧ b.parent = some parent

/-- One block is among the children of the other, at the position that is selected there. -/
def IsFollowed (s : Story Memory) (parent child : BlockId) : Prop :=
  ∃ b i, s.get parent = .ok b ∧ b.selected = some i ∧ b.children[i]? = some child

/-- The list is the story line through a block. -/
structure IsLine (s : Story Memory) (id : BlockId) (line : List BlockId) : Prop where
  /-- No block is on it twice. -/
  nodup : line.Nodup
  /-- It starts at the root. -/
  head : line.head? = some s.rootId
  /-- Each block is the parent of the next. -/
  parents : line.IsChain s.IsParent
  /-- It leads through the block, and from there on each block is followed by its selected child. -/
  through : ∃ above below, line = above ++ id :: below ∧ (id :: below).IsChain s.IsFollowed
  /-- It ends at a block without children. -/
  ends : ∃ leaf b, line.getLast? = some leaf ∧ s.get leaf = .ok b ∧ b.children = []

/-- What stands at a place is what is got from there. -/
theorem place?_eq_some_iff {n : BlockNode} :
    s.place? id = some n ↔ ∃ b, s.get id = .ok b ∧ b.node = n := by
  simp only [place?, Option.map_eq_some_iff, get_eq_ok_iff]

/-- The ids of a story are those of its blocks. -/
theorem mem_keys_iff : id ∈ s.blocks.keys ↔ ∃ n, s.place? id = some n := by
  rw [Table.keys, List.mem_map]
  constructor
  · rintro ⟨⟨key, b⟩, hmem, rfl⟩
    exact ⟨b.node, place?_eq_some_iff.2 ⟨b, get_eq_ok_iff.2 (Table.mem_entries_iff.1 hmem), rfl⟩⟩
  · rintro ⟨n, hn⟩
    obtain ⟨b, hb, -⟩ := place?_eq_some_iff.1 hn
    exact ⟨(id, b), Table.mem_entries_iff.2 (get_eq_ok_iff.1 hb), rfl⟩

/-- A way up has at most as many blocks as the story. -/
theorem IsTree.length_wayUp_le (h : s.IsTree) (hline : WayUp s.place? s.rootId line) :
    line.length ≤ s.size := by
  have hle : line.length ≤ s.blocks.keys.length :=
    h.toLinked.length_wayUp_le mem_keys_iff hline
  rwa [Table.keys, List.length_map] at hle

/-- On a way up each block has the next one as its parent. -/
theorem IsTree.parents_of_wayUp (h : s.IsTree) (hline : WayUp s.place? s.rootId line) :
    line.IsChain fun child parent => s.IsParent parent child := by
  induction hline with
  | root => exact List.isChain_singleton _
  | child _ hn hchild ih =>
    obtain ⟨m, hm, hparent⟩ := h.child hn hchild
    obtain ⟨b, hb, rfl⟩ := place?_eq_some_iff.1 hm
    exact List.isChain_cons_cons.2 ⟨⟨b, hb, hparent⟩, ih⟩

/-- A way up leads to the root. -/
theorem getLast?_of_wayUp (hline : WayUp s.place? s.rootId line) :
    line.getLast? = some s.rootId := by
  induction hline with
  | root => rfl
  | child _ _ _ ih => rw [List.getLast?_cons_cons, ih]

/-- The way down from a block with a way up ends at a block without children, if the steps allowed
are as many as there are blocks that are not above it. -/
theorem IsTree.leafBelow_of_wayUp (h : s.IsTree) {steps : Nat}
    (hline : WayUp s.place? s.rootId (id :: line)) (hsteps : s.size ≤ steps + line.length) :
    ∃ below leaf b, s.leafBelow steps id = .ok leaf ∧ (id :: below).getLast? = some leaf ∧
      (id :: below).IsChain s.IsFollowed ∧ s.get leaf = .ok b ∧ b.children = [] ∧
      WayUp s.place? s.rootId ((id :: below).reverse ++ line) := by
  induction steps generalizing id line with
  | zero =>
    have hle := h.length_wayUp_le hline
    rw [List.length_cons] at hle
    omega
  | succ steps ih =>
    obtain ⟨n, hn⟩ := h.registered_of_wayUp hline id List.mem_cons_self
    obtain ⟨b, hb, rfl⟩ := place?_eq_some_iff.1 hn
    simp only [leafBelow, hb]
    cases hselected : b.selectedChild? with
    | none =>
      exact ⟨[], id, b, rfl, rfl, List.isChain_singleton id, hb,
        b.children_of_selectedChild? (h.selection hn) hselected, hline⟩
    | some child =>
      obtain ⟨i, hi, hat⟩ := Block.selectedChild?_eq_some_iff.1 hselected
      have hchild : WayUp s.place? s.rootId (child :: id :: line) :=
        hline.child hn (List.mem_of_getElem? hat)
      have hfewer : s.size ≤ steps + (id :: line).length := by
        rw [List.length_cons]
        omega
      obtain ⟨below, leaf, c, hleaf, hlast, hchain, hc, hnone, hway⟩ := ih hchild hfewer
      refine ⟨child :: below, leaf, c, hleaf, ?_, ?_, hc, hnone, ?_⟩
      · rw [List.getLast?_cons_cons, hlast]
      · exact List.isChain_cons_cons.2 ⟨⟨b, i, hb, hi, hat⟩, hchain⟩
      · rwa [List.reverse_cons, List.append_assoc]

/-- The way up is climbed if as many blocks are allowed as are on it. -/
theorem IsTree.lineAbove_of_wayUp (h : s.IsTree) (start : BlockId)
    (hline : WayUp s.place? s.rootId line) {more : Nat} (hmore : line.length ≤ more)
    (below : List BlockId) :
    s.lineAbove start more line.head? below = .ok (line.reverse ++ below) := by
  induction hline generalizing more below with
  | root =>
    obtain ⟨n, hn, hparent⟩ := h.rooted
    obtain ⟨b, hb, rfl⟩ := place?_eq_some_iff.1 hn
    obtain ⟨more, rfl⟩ := Nat.exists_eq_add_of_lt hmore
    have hnone : b.parent = none := hparent
    simp only [List.head?_cons, lineAbove, hb, hnone]
    rfl
  | @child id child line n _ hn hchild ih =>
    obtain ⟨m, hm, hparent⟩ := h.child hn hchild
    obtain ⟨c, hc, rfl⟩ := place?_eq_some_iff.1 hm
    obtain ⟨more, rfl⟩ := Nat.exists_eq_add_of_lt hmore
    have hup : c.parent = (id :: line).head? := hparent
    simp only [List.head?_cons, lineAbove, hc]
    rw [hup, ih (Nat.le_add_right _ _) (child :: below), List.reverse_cons (a := child),
      List.append_assoc, List.singleton_append]

/-- In a tree the story line through a block is found. -/
theorem IsTree.exists_line (h : s.IsTree) {b : Block} (hb : s.get id = .ok b) :
    ∃ line, s.line id = .ok line ∧ s.IsLine id line := by
  obtain ⟨up, hup⟩ := (h.below (place?_eq_some_iff.2 ⟨b, hb, rfl⟩)).exists_wayUp
  obtain ⟨below, leaf, c, hleaf, hlast, hchain, hc, hnone, hway⟩ :=
    h.leafBelow_of_wayUp hup (Nat.le_add_right s.size up.length)
  have hhead : ((id :: below).reverse ++ up).head? = some leaf := by
    rw [List.head?_append, List.head?_reverse, hlast, Option.some_or]
  have hline : ((id :: below).reverse ++ up).reverse = up.reverse ++ id :: below := by
    rw [List.reverse_append, List.reverse_reverse]
  refine ⟨_, ?_, ?_, ?_, ?_, ⟨up.reverse, below, hline, hchain⟩, leaf, c, ?_, hc, hnone⟩
  · have hclimb := h.lineAbove_of_wayUp id hway (h.length_wayUp_le hway) []
    rw [hhead, List.append_nil] at hclimb
    rw [Story.line, hleaf]
    exact hclimb
  · exact List.nodup_reverse.2 (h.toLinked.nodup_wayUp hway)
  · rw [List.head?_reverse, getLast?_of_wayUp hway]
  · exact List.isChain_reverse.2 (h.parents_of_wayUp hway)
  · rw [List.getLast?_reverse, hhead]

/-- In every run the story line through a registered block is found, and the way down and the way up
do not reach the limit. Any other block is not found. -/
theorem Reachable.line_through (h : s.Reachable) (id : BlockId) :
    (s.blocks.has id = true → ∃ line, s.line id = .ok line ∧ s.IsLine id line) ∧
    (s.blocks.has id = false → s.line id = .error (.notFound id)) := by
  refine ⟨fun hid => ?_, fun hid => ?_⟩
  · obtain ⟨b, hb⟩ := Option.isSome_iff_exists.1 hid
    exact h.isTree.exists_line (get_eq_ok_iff.2 hb)
  · have hmissing : s.get id = .error (.notFound id) := by
      rw [Table.has, Option.isSome_eq_false_iff, Option.isNone_iff_eq_none] at hid
      rw [get, hid]
    -- The root is registered, so the way down takes a first step.
    obtain ⟨n, hn⟩ : ∃ n, s.size = n + 1 :=
      Nat.exists_eq_add_one.2 (h.isTree.length_wayUp_le .root)
    rw [Story.line, hn, leafBelow, hmissing]

/-- Three children of the root, a grandchild under the first one, a way back to the second one and a
restart: from the root the line follows the second child, and through the first and the third one it
leads past the selection. -/
theorem Reachable.line_through_restarted :
    let root := Config.default.rootId
    let s := ((((((Story.new Config.default Config.default.sequentialRenamer 1).after
      (.createChild none "a" "now" [])).after (.createChild none "b" "now" [])).after
      (.createChild none "c" "now" [])).after (.complete "a" ⟨true, "text", [], []⟩)).after
      (.createChild (some "a") "d" "now" [])).after (.selectChild root 1)
    ∃ t, s.Reachable ∧
      restore Config.default Config.default.sequentialRenamer 1 s.snapshot = .ok t ∧
      t.Reachable ∧
      (∃ b, t.get root = .ok b ∧ b.children = ["a", "b", "c"] ∧ b.selected = some 1) ∧
      t.blocks.has root = true ∧ t.blocks.has "a" = true ∧ t.blocks.has "c" = true ∧
      t.blocks.has "e" = false ∧
      t.line root = .ok [root, "b"] ∧ t.IsLine root [root, "b"] ∧
      t.line "a" = .ok [root, "a", "d"] ∧ t.IsLine "a" [root, "a", "d"] ∧
      t.line "c" = .ok [root, "c"] ∧ t.IsLine "c" [root, "c"] ∧
      t.line "e" = .error (.notFound "e") := by
  intro root s
  have hs : s.Reachable :=
    ((((((Reachable.new _ _ _).call _).call _).call _).call _).call _).call _
  have hrestore : (restore Config.default Config.default.sequentialRenamer 1 s.snapshot).map
      (fun t => ((t.get root).map fun b => (b.children, b.selected), t.line root, t.line "a",
        t.line "c", ["e", root, "a", "c"].map t.blocks.has)) =
      .ok (.ok (["a", "b", "c"], some 1), .ok [root, "b"], .ok [root, "a", "d"], .ok [root, "c"],
        [false, true, true, true]) := by
    subst s root
    rfl
  obtain ⟨t, ht, hview⟩ := exists_of_map_eq_ok hrestore
  simp only [Prod.mk.injEq, List.map_cons, List.map_nil, List.cons.injEq, and_true] at hview
  obtain ⟨hroot, hlineRoot, hlineA, hlineC, hhasE, hhasRoot, hhasA, hhasC⟩ := hview
  obtain ⟨b, hb, hselection⟩ := exists_of_map_eq_ok hroot
  obtain ⟨hchildren, hselected⟩ := Prod.mk.inj hselection
  have hreachable : t.Reachable := hs.restart _ _ _ ht
  have hline : ∀ {id line}, t.blocks.has id = true → t.line id = .ok line → t.IsLine id line := by
    intro id line hid hline
    obtain ⟨found, hfound, his⟩ := (hreachable.line_through id).1 hid
    obtain rfl := Except.ok.inj (hfound.symm.trans hline)
    exact his
  exact ⟨t, hs, ht, hreachable, ⟨b, hb, hchildren, hselected⟩, hhasRoot, hhasA, hhasC, hhasE,
    hlineRoot, hline hhasRoot hlineRoot, hlineA, hline hhasA hlineA, hlineC, hline hhasC hlineC,
    (hreachable.line_through "e").2 hhasE⟩

end Story

end BranchingStory
