import BranchingStory.Proofs.Story.Run
import BranchingStory.Proofs.Tree.Links

/-!
# Stories are trees

In every run the blocks of a story are a tree that grows from its root. A step of one block and a
restart leave the links as they are, and a new child is a new leaf.
-/

namespace BranchingStory

/-- A step keeps the links of a block, and a selection that fits. -/
theorem Block.Step.sameLinks {b next : Block} {call : Call} {answer : Answer}
    (h : b.Step call next answer) : b.node.SameLinks next.node := by
  obtain ⟨hid, hparent, hchildren, -, hselected⟩ := h.keeps
  refine ⟨hid, hparent, hchildren, fun hfits => ?_⟩
  obtain ⟨hnone, hlt⟩ := hfits
  rw [node] at hnone hlt
  rw [node, hchildren]
  rcases hselected with hsame | ⟨i, hi, hsome⟩
  · rw [hsame]
    exact ⟨hnone, hlt⟩
  · have hne : b.children ≠ [] := List.ne_nil_of_length_pos (Nat.zero_lt_of_lt hi)
    rw [hsome]
    exact ⟨by simp [hne], fun j hj => Option.some.inj hj ▸ hi⟩

/-- A restored block has the links that were recorded. -/
theorem Block.sameLinks_toBlock (b : Block) : b.node.SameLinks b.record.toBlock.node :=
  ⟨rfl, rfl, rfl, fun hfits => ⟨hfits.none_iff, hfits.lt_length⟩⟩

namespace Story

variable {Memory : Type} {s t : Story Memory}

/-- Where a block stands in the tree. -/
def place? (s : Story Memory) (id : BlockId) : Option BlockNode := (s.blocks.get? id).map Block.node

/-- A block put in its place stands there, and other places stay as they are. -/
theorem place?_put (s : Story Memory) (b : Block) :
    (s.put b).place? = Function.update s.place? b.id (some b.node) := by
  funext id
  by_cases h : id = b.id
  · subst h
    rw [Function.update_self, place?, put, Table.get?_insert_self, Option.map_some]
  · rw [Function.update_of_ne h, place?, put, Table.get?_insert_ne _ (Ne.symm h), place?]

/-- A call leaves the root where it is. -/
theorem rootId_after (s : Story Memory) (call : Call) : (s.after call).rootId = s.rootId := by
  rcases s.after_cases call with ht | ⟨b, next, answer, memory, -, -, ht⟩ |
    ⟨b, parent, current, id, time, params, -, -, -, -, ht⟩ <;> rw [ht] <;> rfl

/-- The blocks of a story are a tree. -/
def IsTree (s : Story Memory) : Prop := BlockNode.IsTree s.place? s.rootId

/-- A block of a tree that is got stands under its own id. -/
theorem IsTree.place?_of_get (h : s.IsTree) {id : BlockId} {b : Block} (hb : s.get id = .ok b) :
    b.id = id ∧ s.place? b.id = some b.node := by
  have hplace : s.place? id = some b.node := by rw [place?, get_eq_ok_iff.1 hb, Option.map_some]
  have hid : b.id = id := h.id_eq hplace
  exact ⟨hid, hid ▸ hplace⟩

/-- A new story is a tree. -/
theorem isTree_new (config : Config) (renamer : Renamer Memory) (memory : Memory) :
    (Story.new config renamer memory).IsTree := by
  have hplace : (Story.new config renamer memory).place? =
      Function.update (fun _ => none) config.rootId (some (Block.root config.rootId).node) :=
    place?_put ⟨config, config.rootId, .empty, renamer, memory⟩ (.root config.rootId)
  rw [IsTree, hplace]
  exact .alone rfl rfl rfl rfl

/-- A call leaves a tree. -/
theorem IsTree.after (h : s.IsTree) (call : Call) : (s.after call).IsTree := by
  rw [IsTree, rootId_after]
  rcases s.after_cases call with ht | ⟨b, next, answer, memory, hb, hstep, ht⟩ |
    ⟨b, parent, current, id, time, params, -, hb, -, hnew, ht⟩
  · rwa [ht]
  · obtain ⟨-, hplace⟩ := h.place?_of_get hb
    have hnext : (s.after call).place? = Function.update s.place? b.id (some next.node) := by
      rw [ht, ← hstep.keeps.id_eq]
      exact s.place?_put next
    rw [hnext]
    exact BlockNode.IsTree.update h hplace hstep.sameLinks
  · obtain ⟨-, hplace⟩ := h.place?_of_get hb
    have hfree : s.place? id = none := by
      simpa [place?, Table.has] using hnew
    have hnext : (s.after call).place? = BlockNode.graft s.place? b.node b.id id := by
      rw [ht, place?_put, place?_put]
      rfl
    rw [hnext]
    exact BlockNode.IsTree.graft h hplace hfree

/-- A restart leaves a tree. -/
theorem IsTree.restore (h : s.IsTree) {config : Config} {renamer : Renamer Memory}
    {memory : Memory} (hrestore : restore config renamer memory s.snapshot = .ok t) : t.IsTree := by
  have hs : s.Holds fun _ => True := fun id b hb => ⟨(h.place?_of_get hb).1, trivial⟩
  rw [IsTree, rootId_restore hrestore]
  refine BlockNode.IsTree.congr h fun id => ?_
  rw [place?, place?, get?_restore hs hrestore]
  cases s.blocks.get? id with
  | none => exact .none
  | some b => exact .some b.sameLinks_toBlock

/-- In every run the blocks are a tree. -/
theorem Reachable.isTree (h : s.Reachable) : s.IsTree := by
  induction h with
  | new config renamer memory => exact isTree_new config renamer memory
  | call h call ih => exact ih.after call
  | restart h config renamer memory hrestore ih => exact ih.restore hrestore

/-- In every run the blocks are a tree that grows from the root, and the parent of every other
block lists it exactly once. -/
theorem Reachable.stays_tree (h : s.Reachable) :
    s.IsTree ∧ ∀ id b, s.get id = .ok b → id ≠ s.rootId → ∃ parent p, b.parent = some parent ∧
      s.get parent = .ok p ∧ p.children.count id = 1 := by
  refine ⟨h.isTree, fun id b hb hne => ?_⟩
  obtain ⟨hid, hplace⟩ := h.isTree.place?_of_get hb
  rw [hid] at hplace
  obtain ⟨parent, m, hparent, hm, hcount⟩ := h.isTree.count_parent hplace hne
  obtain ⟨p, hp, rfl⟩ := Option.map_eq_some_iff.1 hm
  exact ⟨parent, p, hparent, get_eq_ok_iff.2 hp, hcount⟩

/-- Two children of the root, a third one with the id of the first, a grandchild, a way back to the
first child and a restart. -/
theorem Reachable.stays_tree_restarted :
    let root := Config.default.rootId
    let s := ((((((Story.new Config.default Config.default.sequentialRenamer 1).after
      (.createChild none "a" "now" [])).after (.createChild none "b" "now" [])).after
      (.createChild none "a" "now" [])).after (.complete "a" ⟨true, "text", [], []⟩)).after
      (.createChild (some "a") "c" "now" [])).after (.selectChild root 0)
    ∃ t c a, s.Reachable ∧
      restore Config.default Config.default.sequentialRenamer 1 s.snapshot = .ok t ∧
      t.nodes = [⟨root, none, ["a", "b"], some 0, .idle⟩, ⟨"a", some root, ["c"], some 0, .idle⟩,
        ⟨"b", some root, [], none, .idle⟩, ⟨"c", some "a", [], none, .idle⟩] ∧
      t.Reachable ∧ t.IsTree ∧ t.get "c" = .ok c ∧ c.parent = some "a" ∧ t.get "a" = .ok a ∧
      a.children.count "c" = 1 := by
  intro root s
  have hs : s.Reachable :=
    ((((((Reachable.new _ _ _).call _).call _).call _).call _).call _).call _
  have hrestore : (restore Config.default Config.default.sequentialRenamer 1 s.snapshot).map
      (fun t => (t.nodes, t.rootId, (t.get "c").map Block.parent)) =
        .ok ([⟨root, none, ["a", "b"], some 0, .idle⟩, ⟨"a", some root, ["c"], some 0, .idle⟩,
          ⟨"b", some root, [], none, .idle⟩, ⟨"c", some "a", [], none, .idle⟩], root,
          .ok (some "a")) := by
    subst s root
    rfl
  obtain ⟨t, ht, hrestored⟩ := exists_of_map_eq_ok hrestore
  obtain ⟨hnodes, hroot, hc⟩ : t.nodes = _ ∧ t.rootId = root ∧
      (t.get "c").map Block.parent = .ok (some "a") := by
    simpa only [Prod.mk.injEq] using hrestored
  obtain ⟨c, hget, hparent⟩ := exists_of_map_eq_ok hc
  have hreachable : t.Reachable := hs.restart _ _ _ ht
  have hne : "c" ≠ t.rootId := by
    rw [hroot]
    decide
  obtain ⟨htree, hlisted⟩ := hreachable.stays_tree
  obtain ⟨parent, a, hparent', ha, hcount⟩ := hlisted "c" c hget hne
  obtain rfl := Option.some.inj (hparent.symm.trans hparent')
  exact ⟨t, c, a, hs, ht, hnodes, hreachable, htree, hget, hparent, ha, hcount⟩

end Story

end BranchingStory
