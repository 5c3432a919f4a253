import BranchingStory.Proofs.Story.Restoring
import BranchingStory.Proofs.Story.Tree

/-!
# Restarts

The blocks of every run are a tree, so a story can always be restored from its own snapshot. It gets
back the same blocks under the same ids. An idle block is as it was; any other block loses what was
in flight and is idle on the world that it started from.
-/

namespace BranchingStory

/-- The block after a restart: an idle one as it is, and any other one idle on its input world. -/
def Block.settle (b : Block) : Block :=
  if b.status = .idle then b else { b with phase := .idle none b.input }

/-- An idle block is settled. -/
theorem Block.settle_of_idle {b : Block} (h : b.status = .idle) : b.settle = b := if_pos h

/-- A settled block is idle. -/
theorem Block.status_settle (b : Block) : b.settle.status = .idle := by
  unfold settle
  split
  · assumption
  · rfl

/-- The record of a block is restored to the block settled. -/
theorem Block.toBlock_record (b : Block) : b.record.toBlock = b.settle := by
  obtain ⟨id, parent, children, selected, input, gameState, content, metadata, childParams, phase⟩ :=
    b
  cases phase <;> rfl

namespace Story

variable {Memory : Type} {s t : Story Memory}

/-- All blocks are registered under their own ids. -/
theorem IsTree.holds (h : s.IsTree) : s.Holds fun _ => True :=
  fun _ _ hb => ⟨(h.place?_of_get hb).1, trivial⟩

/-- The snapshot of a story has the record of each block under its id. -/
theorem find?_snapshot (h : s.IsTree) (id : BlockId) :
    Snapshot.find? s.snapshot.blocks id = (s.blocks.get? id).map Block.record := by
  have hids : ∀ e ∈ s.blocks.entries, e.2.id = e.1 := fun e he =>
    (h.holds e.1 e.2 (get_eq_ok_iff.2 (Table.mem_entries_iff.1 he))).1
  rw [snapshot, Table.values, Snapshot.find?, Table.get?]
  generalize s.blocks.entries = l at hids
  induction l with
  | nil => rfl
  | cons e l ih =>
    rw [List.forall_mem_cons] at hids
    by_cases hid : e.1 = id <;> simp [Table.find?, Block.record, hids.1, hid, ← ih hids.2]

/-- The blocks stand in the snapshot where they stand in the story. -/
theorem place?_snapshot (h : s.IsTree) : s.snapshot.place? = s.place? := by
  funext id
  rw [Snapshot.place?, find?_snapshot h, Option.map_map, place?]
  rfl

/-- The snapshot of a story lists each id once. -/
theorem ids_snapshot (h : s.IsTree) : s.snapshot.ids = s.blocks.keys := by
  rw [Snapshot.ids, snapshot, Table.values, Table.keys, List.map_map, List.map_map]
  exact List.map_congr_left fun e he =>
    (h.holds e.1 e.2 (get_eq_ok_iff.2 (Table.mem_entries_iff.1 he))).1

/-- The snapshot of a tree is a tree. -/
theorem IsTree.snapshot (h : s.IsTree) : s.snapshot.IsTree := by
  refine ⟨?_, ?_⟩
  · rw [place?_snapshot h]
    exact h
  · rw [ids_snapshot h]
    exact s.blocks.nodup_keys

/-- A tree can be restored from its own snapshot, with every block settled. -/
theorem exists_restore_snapshot (h : s.IsTree) (config : Config) (renamer : Renamer Memory)
    (memory : Memory) : ∃ blocks : Table Block,
      restore config renamer memory s.snapshot = .ok ⟨config, s.rootId, blocks, renamer, memory⟩ ∧
        blocks.entries = s.blocks.entries.map fun e => (e.1, e.2.settle) := by
  have hfault : s.snapshot.fault? = none := ((Snapshot.isTree_iff_nodup _).1 h.snapshot).1
  have hrestore : restore config renamer memory s.snapshot =
      .ok ⟨config, s.rootId, Table.ofList (s.snapshot.blocks.map fun r => (r.id, r.toBlock)),
        renamer, memory⟩ := by
    rw [restore, hfault]
    rfl
  have hentries := entries_restore h.holds hrestore
  simp only [Block.toBlock_record] at hentries
  exact ⟨_, hrestore, hentries⟩

/-- A tree whose blocks are all idle is restored as it was. -/
theorem restore_snapshot_of_idle (h : s.IsTree)
    (hidle : ∀ id b, s.get id = .ok b → b.status = .idle) (config : Config)
    (renamer : Renamer Memory) (memory : Memory) :
    restore config renamer memory s.snapshot = .ok { s with config, renamer, memory } := by
  obtain ⟨blocks, hrestore, hentries⟩ := exists_restore_snapshot h config renamer memory
  have hsame : s.blocks.entries.map (fun e => (e.1, e.2.settle)) = s.blocks.entries := by
    refine (List.map_congr_left fun e he => ?_).trans (List.map_id _)
    have hstatus := hidle e.1 e.2 (get_eq_ok_iff.2 (Table.mem_entries_iff.1 he))
    rw [Block.settle_of_idle hstatus, id]
  rw [hrestore, Table.ext_entries (hentries.trans hsame)]

/-- In every run a restart succeeds. It keeps the root and the ids, leaves idle blocks as they are
and makes any other block idle on its input world, without a merged world and otherwise as it was.
So it changes nothing when all blocks are idle, and a second restart changes nothing any more. -/
theorem Reachable.restart_settles (h : s.Reachable) (config : Config) (renamer : Renamer Memory)
    (memory : Memory) : ∃ t, restore config renamer memory s.snapshot = .ok t ∧
      t.rootId = s.rootId ∧ t.blocks.keys = s.blocks.keys ∧
      (∀ id b, s.get id = .ok b → b.status = .idle → t.get id = .ok b) ∧
      (∀ id b, s.get id = .ok b → b.status ≠ .idle →
        t.get id = .ok { b with phase := .idle none b.input }) ∧
      ((∀ id b, s.get id = .ok b → b.status = .idle) → t = { s with config, renamer, memory }) ∧
      ∀ (config : Config) (renamer : Renamer Memory) (memory : Memory),
        restore config renamer memory t.snapshot = restore config renamer memory s.snapshot := by
  obtain ⟨blocks, hrestore, hentries⟩ := exists_restore_snapshot h.isTree config renamer memory
  have hget : ∀ id b, s.get id = .ok b → Table.get? blocks id = some b.settle := by
    intro id b hb
    rw [Table.get?, hentries, Table.find?_map, ← Table.get?, get_eq_ok_iff.1 hb, Option.map_some]
  refine ⟨_, hrestore, rfl, ?_, fun id b hb hidle => ?_, fun id b hb hidle => ?_, fun hidle => ?_,
    fun config' renamer' memory' => ?_⟩
  · rw [Table.keys, hentries, List.map_map, Table.keys]
    rfl
  · rw [get_eq_ok_iff, hget id b hb, Block.settle_of_idle hidle]
  · rw [get_eq_ok_iff, hget id b hb, Block.settle, if_neg hidle]
  · exact Except.ok.inj (hrestore.symm.trans
      (restore_snapshot_of_idle h.isTree hidle config renamer memory))
  -- Both restarts end with the same blocks, for settled blocks settle as they are.
  · obtain ⟨blocks', hrestore', hentries'⟩ :=
      exists_restore_snapshot h.isTree config' renamer' memory'
    have hidle : ∀ id b, Story.get ⟨config, s.rootId, blocks, renamer, memory⟩ id = .ok b →
        b.status = .idle := by
      intro id b hb
      have hmem := Table.mem_entries_iff.2 (get_eq_ok_iff.1 hb)
      rw [hentries] at hmem
      obtain ⟨e, -, he⟩ := List.mem_map.1 hmem
      cases he
      exact e.2.status_settle
    rw [restore_snapshot_of_idle (h.isTree.restore hrestore) hidle, hrestore',
      Table.ext_entries (hentries.trans hentries'.symm)]

/-- The root with a current world of its own, a block that waits for the generator with a queue, one
whose generator failed, and one that waits for the user: after a restart the first is unchanged and
the others are idle on their input worlds. -/
theorem Reachable.restart_settles_every_phase :
    let sword : EntityId := ⟨.item, "sword"⟩
    let set (n : Int64) : Operation := .modify sword "hp" .equal (.int n)
    let root := Config.default.rootId
    let s := (((((((((Story.new Config.default Config.default.sequentialRenamer 1).after
      (.submit root [.create sword []])).after (.createChild none "a" "now" [])).after
      (.createChild none "b" "now" [])).after (.createChild none "c" "now" [])).after
      (.submit "a" [set 1])).after (.complete "b" ⟨false, "", [], []⟩)).after
      (.submit "c" [set 1])).after (.complete "c" ⟨true, "text", [set 2], []⟩)).after
      (.submit root [set 3])
    let idle (id : BlockId) (t : Story Nat) : Prop := ∃ b, s.get id = .ok b ∧
      t.get id = .ok { b with phase := .idle none b.input }
    s.Reachable ∧
      s.nodes.map (fun n => (n.id, n.status)) = [(root, .idle), ("a", .loading), ("b", .error),
        ("c", .resolvingConflict)] ∧
      ∃ t, restore Config.default Config.default.sequentialRenamer 1 s.snapshot = .ok t ∧
        t.blocks.keys = [root, "a", "b", "c"] ∧ t.get root = s.get root ∧ idle "a" t ∧
        idle "b" t ∧ idle "c" t ∧
        restore Config.default Config.default.sequentialRenamer 1 t.snapshot = .ok t := by
  intro sword set root s idle
  have hs : s.Reachable :=
    (((((((((Reachable.new _ _ _).call _).call _).call _).call _).call _).call _).call _).call
      _).call _
  have hnodes : s.nodes.map (fun n => (n.id, n.status)) = [(root, .idle), ("a", .loading),
      ("b", .error), ("c", .resolvingConflict)] := by
    subst s root
    decide +kernel
  have hkeys : s.blocks.keys = [root, "a", "b", "c"] := by
    subst s root
    decide +kernel
  have hstatus : ∀ id status, (s.blocks.get? id).map Block.status = some status →
      ∃ b, s.get id = .ok b ∧ b.status = status := fun id status h => by
    obtain ⟨b, hb, hbs⟩ := Option.map_eq_some_iff.1 h
    exact ⟨b, get_eq_ok_iff.2 hb, hbs⟩
  obtain ⟨r, hr, hrs⟩ := hstatus root .idle (by subst s root; decide +kernel)
  obtain ⟨a, ha, has⟩ := hstatus "a" .loading (by subst s root; decide +kernel)
  obtain ⟨b, hb, hbs⟩ := hstatus "b" .error (by subst s root; decide +kernel)
  obtain ⟨c, hc, hcs⟩ := hstatus "c" .resolvingConflict (by subst s root; decide +kernel)
  obtain ⟨t, ht, -, hsame, hidle, hother, -, htwice⟩ :=
    hs.restart_settles Config.default Config.default.sequentialRenamer 1
  have hlost : ∀ id b status, s.get id = .ok b → b.status = status → status ≠ .idle →
      idle id t := by
    rintro id b status hb rfl hne
    exact ⟨b, hb, hother id b hb hne⟩
  exact ⟨hs, hnodes, t, ht, hsame.trans hkeys, (hidle root r hr hrs).trans hr.symm,
    hlost "a" a _ ha has (by decide), hlost "b" b _ hb hbs (by decide),
    hlost "c" c _ hc hcs (by decide), (htwice _ _ _).trans ht⟩

end Story

end BranchingStory
