import BranchingStory.Proofs.Tree.Walk
import Mathlib.Data.List.Nodup

/-!
# What is restored

A snapshot is restored when its ids are distinct, the links of its records fit together and a walk
from the root meets as many blocks as there are. Every tree is restored. What is restored without
being a tree has both of two faults, which the count of the walk cannot tell from none: a record
lists a child twice, and another one is cut off from the root.
-/

namespace BranchingStory

/-- Where the block of a record stands in the tree. -/
def BlockRecord.node (r : BlockRecord) : BlockNode :=
  ⟨r.id, r.parent, r.children, r.selected, r.status⟩

namespace Snapshot

variable {s : Snapshot} {r : BlockRecord} {id : BlockId} {n : BlockNode}

/-- The ids of the records. -/
def ids (s : Snapshot) : List BlockId := s.blocks.map BlockRecord.id

/-- Where the block of an id stands in the tree. -/
def place? (s : Snapshot) (id : BlockId) : Option BlockNode :=
  (find? s.blocks id).map BlockRecord.node

/-- The ids are distinct and the recorded blocks are a tree that grows from the root. -/
structure IsTree (s : Snapshot) : Prop extends BlockNode.IsTree s.place? s.rootId where
  /-- The ids are distinct. -/
  distinct : s.ids.Nodup

/-- A block that stands in the tree has a record. -/
theorem exists_of_place? (h : s.place? id = some n) : ∃ r ∈ s.blocks, r.id = id ∧ r.node = n := by
  obtain ⟨r, hr, hnode⟩ := Option.map_eq_some_iff.1 h
  exact ⟨r, List.mem_of_find?_eq_some hr, by simpa using List.find?_some hr, hnode⟩

/-- The ids of the records are those of the blocks that stand in the tree. -/
theorem mem_ids_iff : id ∈ s.ids ↔ ∃ n, s.place? id = some n := by
  constructor
  · intro hid
    obtain ⟨r, hr, rfl⟩ := List.mem_map.1 hid
    have hfound : (find? s.blocks r.id).isSome := List.find?_isSome.2 ⟨r, hr, by simp⟩
    obtain ⟨q, hq⟩ := Option.isSome_iff_exists.1 hfound
    exact ⟨q.node, by rw [place?, hq, Option.map_some]⟩
  · rintro ⟨n, hn⟩
    obtain ⟨r, hr, rfl, -⟩ := exists_of_place? hn
    exact List.mem_map_of_mem hr

/-- If the ids are distinct, the block of a record stands where the record says. -/
theorem place?_of_mem (hdistinct : s.ids.Nodup) (hr : r ∈ s.blocks) :
    s.place? r.id = some r.node := by
  obtain ⟨n, hn⟩ := mem_ids_iff.1 (List.mem_map_of_mem hr)
  obtain ⟨q, hq, hid, rfl⟩ := exists_of_place? hn
  rw [hn, List.inj_on_of_nodup_map hdistinct hq hr hid]

/-- No id is found to repeat an earlier one exactly when they are distinct and new. -/
theorem firstRepeated?_eq_none_iff {seen ids : List BlockId} :
    firstRepeated? seen ids = none ↔ ids.Nodup ∧ ∀ id ∈ ids, id ∉ seen := by
  induction ids generalizing seen with
  | nil => simp [firstRepeated?]
  | cons id ids ih =>
    rw [firstRepeated?]
    split
    · next hseen => simp [hseen]
    · next hseen =>
      rw [ih, List.nodup_cons]
      simp only [List.mem_cons, not_or, forall_eq_or_imp]
      constructor
      · rintro ⟨hnodup, hnew⟩
        exact ⟨⟨fun hmem => (hnew id hmem).1 rfl, hnodup⟩, hseen, fun key hkey => (hnew key hkey).2⟩
      · rintro ⟨⟨hid, hnodup⟩, -, hnew⟩
        exact ⟨hnodup, fun key hkey => ⟨fun he => hid (he ▸ hkey), hnew key hkey⟩⟩

/-- The way up from a record is right when it leads to a record that lists it. -/
theorem parentFault?_eq_none_iff : parentFault? s.blocks r = none ↔
    ∃ parent m, r.parent = some parent ∧ s.place? parent = some m ∧ r.id ∈ m.children := by
  unfold parentFault? place?
  cases r.parent with
  | none => simp
  | some parent =>
    cases hp : find? s.blocks parent with
    | none => simp [hp]
    | some p => simp [hp, BlockRecord.node]

/-- The ways down from a record are right when they lead to records that name it. -/
theorem childFault?_eq_none_iff : childFault? s.blocks r = none ↔
    ∀ child ∈ r.children, ∃ m, s.place? child = some m ∧ m.parent = some r.id := by
  unfold childFault? place?
  rw [Option.map_eq_none_iff, List.find?_eq_none]
  refine forall₂_congr fun child _ => ?_
  cases find? s.blocks child <;> simp [BlockRecord.node]

/-- A selection is right when it is that of a child. -/
theorem selectionFault?_eq_none_iff : selectionFault? r = none ↔ r.node.SelectionFits := by
  have hfits : r.node.SelectionFits ↔ (r.selected = none ↔ r.children = []) ∧
      ∀ i, r.selected = some i → i < r.children.length :=
    ⟨fun h => ⟨h.none_iff, h.lt_length⟩, fun h => ⟨h.1, h.2⟩⟩
  rw [hfits, selectionFault?]
  cases r.selected with
  | none => simp
  | some i =>
    have hne : i < r.children.length → r.children ≠ [] := fun hi =>
      List.ne_nil_of_length_pos (Nat.zero_lt_of_lt hi)
    simpa using hne

/-- The root is right when it has a record without a parent. -/
theorem rootFault?_eq_none_iff :
    s.rootFault? = none ↔ ∃ n, s.place? s.rootId = some n ∧ n.parent = none := by
  unfold rootFault? place?
  cases hroot : find? s.blocks s.rootId with
  | none => simp
  | some r => simp [BlockRecord.node]

/-- A walk along the children counts what it meets. -/
theorem visits_eq_length_walk (s : Snapshot) (limit : Nat) (stack : List BlockId) :
    visits s.blocks limit stack = (BlockNode.walk s.place? limit stack).1.length := by
  induction limit generalizing stack with
  | zero => rfl
  | succ limit ih =>
    cases stack with
    | nil => rfl
    | cons id rest =>
      have hkids : (find? s.blocks id).elim [] BlockRecord.children =
          BlockNode.kids s.place? id := by
        rw [BlockNode.kids, place?]
        cases find? s.blocks id <;> rfl
      rw [visits, BlockNode.walk, hkids, ih, List.length_cons, Nat.add_comm]

/-- If the ids are distinct, the links are right exactly when they fit together. -/
theorem linked_iff (hdistinct : s.ids.Nodup) : BlockNode.Linked s.place? s.rootId ↔
    s.rootFault? = none ∧ ∀ r ∈ s.blocks, recordFault? s.rootId s.blocks r = none := by
  have hrecord : ∀ r, recordFault? s.rootId s.blocks r = none ↔
      (r.id ≠ s.rootId → parentFault? s.blocks r = none) ∧ childFault? s.blocks r = none ∧
        selectionFault? r = none := by
    intro r
    rw [recordFault?, Option.orElse_eq_or, Option.orElse_eq_or, Option.or_eq_none_iff,
      Option.or_eq_none_iff]
    by_cases hid : r.id = s.rootId <;> simp [hid]
  simp only [hrecord, rootFault?_eq_none_iff, parentFault?_eq_none_iff, childFault?_eq_none_iff,
    selectionFault?_eq_none_iff]
  constructor
  · intro h
    refine ⟨h.rooted, fun r hr => ?_⟩
    have hplace := place?_of_mem hdistinct hr
    exact ⟨h.parent hplace, fun child => h.child hplace, h.selection hplace⟩
  · rintro ⟨hroot, hrecords⟩
    refine ⟨fun {id n} hn => ?_, hroot, fun {id n} hn => ?_, fun {id n child} hn => ?_,
      fun {id n} hn => ?_⟩
    all_goals
      obtain ⟨r, hr, rfl, rfl⟩ := exists_of_place? hn
      obtain ⟨hparent, hchild, hselection⟩ := hrecords r hr
    · rfl
    · exact hparent
    · exact hchild child
    · exact hselection

/-- A snapshot has no fault exactly when its ids are distinct, the links fit together and a walk
from the root meets as many blocks as there are. -/
theorem fault?_eq_none_iff (s : Snapshot) : s.fault? = none ↔
    s.ids.Nodup ∧ BlockNode.Linked s.place? s.rootId ∧
      (BlockNode.walk s.place? (s.ids.length + 1) [s.rootId]).1.length = s.ids.length := by
  have hrepeated : firstRepeated? [] s.ids = none ↔ s.ids.Nodup := by
    rw [firstRepeated?_eq_none_iff]
    simp
  have hlength : s.ids.length = s.blocks.length := List.length_map _
  rw [fault?, ← ids, ← visits_eq_length_walk, hlength]
  cases hfirst : firstRepeated? [] s.ids with
  | some id =>
    have hdistinct : ¬ s.ids.Nodup := fun h => by
      rw [hrepeated.2 h] at hfirst
      cases hfirst
    simp [hdistinct]
  | none =>
    have hdistinct := hrepeated.1 hfirst
    rw [linked_iff hdistinct]
    simp [List.findSome?_eq_none_iff, hdistinct, and_assoc]

/-- A snapshot is a tree exactly when it has no fault and no record lists a child twice. -/
theorem isTree_iff_nodup (s : Snapshot) :
    s.IsTree ↔ s.fault? = none ∧ ∀ r ∈ s.blocks, r.children.Nodup := by
  rw [fault?_eq_none_iff]
  constructor
  · intro h
    exact ⟨⟨h.distinct, h.toLinked, h.length_walk mem_ids_iff h.distinct⟩,
      fun r hr => h.nodup (place?_of_mem h.distinct hr)⟩
  · rintro ⟨⟨hdistinct, hlinked, hlength⟩, hchildren⟩
    refine ⟨hlinked.isTree_of_nodup mem_ids_iff hlength fun {id n} hn => ?_, hdistinct⟩
    obtain ⟨r, hr, -, rfl⟩ := exists_of_place? hn
    exact hchildren r hr

/-- A snapshot is a tree exactly when it has no fault and no record is cut off from the root. -/
theorem isTree_iff_below (s : Snapshot) : s.IsTree ↔
    s.fault? = none ∧ ∀ r ∈ s.blocks, BlockNode.Below s.place? s.rootId r.id := by
  constructor
  · intro h
    exact ⟨((isTree_iff_nodup s).1 h).1, fun r hr => h.below (place?_of_mem h.distinct hr)⟩
  · rw [fault?_eq_none_iff]
    rintro ⟨⟨hdistinct, hlinked, hlength⟩, hbelow⟩
    refine ⟨hlinked.isTree_of_below mem_ids_iff hlength hdistinct fun {id n} hn => ?_, hdistinct⟩
    obtain ⟨r, hr, rfl, -⟩ := exists_of_place? hn
    exact hbelow r hr

end Snapshot

namespace Story

variable {Memory : Type}

/-- A story is restored when the snapshot has no fault. -/
theorem exists_restore_iff (config : Config) (renamer : Renamer Memory) (memory : Memory)
    (s : Snapshot) : (∃ t, restore config renamer memory s = .ok t) ↔ s.fault? = none := by
  unfold restore
  cases s.fault? <;> simp

/-- A snapshot is restored exactly when its ids are distinct, its links fit together and a walk from
the root meets as many blocks as there are. So every tree is restored, and what is restored is a
tree as soon as no record lists a child twice, and as soon as no record is cut off from the root. -/
theorem restore_tree_iff (config : Config) (renamer : Renamer Memory) (memory : Memory)
    (s : Snapshot) :
    let restored := ∃ t, restore config renamer memory s = .ok t
    (restored ↔ s.ids.Nodup ∧ BlockNode.Linked s.place? s.rootId ∧
      (BlockNode.walk s.place? (s.ids.length + 1) [s.rootId]).1.length = s.ids.length) ∧
    (s.IsTree ↔ restored ∧ ∀ r ∈ s.blocks, r.children.Nodup) ∧
    (s.IsTree ↔ restored ∧ ∀ r ∈ s.blocks, BlockNode.Below s.place? s.rootId r.id) := by
  intro restored
  have hrestored : restored ↔ s.fault? = none := exists_restore_iff config renamer memory s
  rw [hrestored]
  exact ⟨s.fault?_eq_none_iff, s.isTree_iff_nodup, s.isTree_iff_below⟩

/-- The root lists its only child twice, and the third record is its own parent and child: the walk
from the root meets three blocks, as many as there are, and the snapshot is restored. -/
theorem restore_cut_off :
    let record (id : BlockId) (parent : Option BlockId) (children : List BlockId)
        (selected : Option Nat) : BlockRecord :=
      ⟨id, parent, children, selected, .idle, "", [], [], .empty, .empty, none, none⟩
    let s : Snapshot := ⟨"r", [record "r" none ["a", "a"] (some 0),
      record "a" (some "r") [] none, record "x" (some "x") ["x"] (some 0)]⟩
    (∃ t, restore Config.default Config.default.sequentialRenamer 1 s = .ok t) ∧
      ¬ s.IsTree ∧ ¬ BlockNode.Below s.place? s.rootId "x" := by
  intro record s
  have hfault : s.fault? = none := by
    subst s record
    rfl
  have htwice : ¬ (record "r" none ["a", "a"] (some 0)).children.Nodup := by
    subst record
    simp
  have htree : ¬ s.IsTree := fun h =>
    htwice (((Snapshot.isTree_iff_nodup s).1 h).2 _ List.mem_cons_self)
  refine ⟨(exists_restore_iff ..).2 hfault, htree, fun hx => htree ?_⟩
  refine (Snapshot.isTree_iff_below s).2 ⟨hfault, fun q hq => ?_⟩
  have hroot : s.place? "r" = some (record "r" none ["a", "a"] (some 0)).node := by
    subst s record
    rfl
  have hids : ∀ q ∈ s.blocks, q.id = "r" ∨ q.id = "a" ∨ q.id = "x" := by
    subst s record
    simp
  rcases hids q hq with hid | hid | hid <;> rw [hid]
  · exact .self
  · exact BlockNode.Below.self.child hroot List.mem_cons_self
  · exact hx

end Story

end BranchingStory
