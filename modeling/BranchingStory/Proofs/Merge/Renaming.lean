import BranchingStory.Merge.Detection
import BranchingStory.Proofs.World.Built

/-!
# Renaming is exact and fresh

The targets that get a new id are those that both batches create. A new name is none that either
batch addresses or a live entity bears, and no two targets get the same one, whatever the renamer
proposes. The invariant is carried through the user's batch one operation at a time: the names taken
are those taken at the start and the new ones, and the new ones repeat neither each other nor those.
-/

namespace BranchingStory.Merge

/-- The new name of a renamed target. -/
def newName (r : EntityId × String) : EntityId := { r.1 with id := r.2 }

/-- Both batches create the entity. -/
def BothCreate (generated edited : List Operation) (target : EntityId) : Prop :=
  (∃ g ∈ generated, g.isCreate = true ∧ g.target = target) ∧
    ∃ e ∈ edited, e.isCreate = true ∧ e.target = target

/-- A user operation collides when it creates what the generator creates as well. -/
theorem collides_ofBatch_iff (generated : List Operation) (op : Operation) :
    collides (TargetIndex.ofBatch generated) op = true ↔
      op.isCreate = true ∧ ∃ g ∈ generated, g.isCreate = true ∧ g.target = op.target := by
  simp only [collides, TargetIndex.on_ofBatch, List.any_eq_true, List.mem_filter,
    decide_eq_true_eq, beq_iff_eq, Interaction.of_eq_createCollision_iff]
  constructor
  · rintro ⟨g, ⟨hg, _⟩, ht, hgc, hc⟩
    exact ⟨hc, g, hg, hgc, ht⟩
  · rintro ⟨hc, g, hg, hgc, ht⟩
    exact ⟨g, ⟨hg, ht⟩, ht, hgc, hc⟩

/-- One more user operation adds its target if it collides. -/
theorem bothCreate_append_singleton (generated edited : List Operation) (op : Operation)
    (target : EntityId) :
    BothCreate generated (edited ++ [op]) target ↔
      BothCreate generated edited target ∨
        op.target = target ∧ collides (TargetIndex.ofBatch generated) op = true := by
  rw [collides_ofBatch_iff]
  constructor
  · rintro ⟨hg, e, he, hc, rfl⟩
    rcases List.mem_append.1 he with he | he
    · exact .inl ⟨hg, e, he, hc, rfl⟩
    · rw [List.mem_singleton.1 he] at hc hg ⊢
      exact .inr ⟨rfl, hc, hg⟩
  · rintro (⟨hg, e, he, hc, ht⟩ | ⟨rfl, hc, hg⟩)
    · exact ⟨hg, e, List.mem_append_left _ he, hc, ht⟩
    · exact ⟨hg, op, by simp, hc, rfl⟩

/-- A target has a new id when it is listed with one. -/
theorem isSome_newId?_iff (renamed : List (EntityId × String)) (target : EntityId) :
    (newId? renamed target).isSome = true ↔ target ∈ renamed.map Prod.fst := by
  simp [newId?, List.find?_isSome]

/-- With each target listed once, the new id of a target is the one listed with it. -/
theorem newId?_eq_some_iff {renamed : List (EntityId × String)}
    (h : (renamed.map Prod.fst).Nodup) (target : EntityId) (id : String) :
    newId? renamed target = some id ↔ (target, id) ∈ renamed := by
  induction renamed with
  | nil => simp [newId?]
  | cons r renamed ih =>
    obtain ⟨t, i⟩ := r
    rw [List.map_cons, List.nodup_cons] at h
    by_cases ht : t = target
    · subst ht
      have hn : (t, id) ∉ renamed := fun hm => h.1 (List.mem_map.2 ⟨(t, id), hm, rfl⟩)
      simp [newId?, hn, eq_comm]
    · have hf : newId? ((t, i) :: renamed) target = newId? renamed target := by
        simp [newId?, ht]
      rw [hf, ih h.2]
      simp [Ne.symm ht]

/-- With each target listed once, an operation on a target follows it to the new id. -/
theorem follow_of_nodup {renamed : List (EntityId × String)} (h : (renamed.map Prod.fst).Nodup)
    {op : Operation} {id : String} (hid : (op.target, id) ∈ renamed) :
    follow renamed op = op.retarget id := by
  rw [follow, (newId?_eq_some_iff h op.target id).2 hid]

/-- An operation on a target that is not renamed stays as it is. -/
theorem follow_of_not_mem {renamed : List (EntityId × String)} {op : Operation}
    (hr : op.target ∉ renamed.map Prod.fst) : follow renamed op = op := by
  rw [← isSome_newId?_iff, Bool.not_eq_true, Option.isSome_eq_false_iff, Option.isNone_iff_eq_none]
    at hr
  simp [follow, hr]

/-- No operation that follows its target addresses one that is listed and no new name. -/
theorem target_follow_ne {renamed : List (EntityId × String)} (h : (renamed.map Prod.fst).Nodup)
    {target : EntityId} (htarget : target ∈ renamed.map Prod.fst)
    (hnew : ∀ r ∈ renamed, target ≠ newName r) (op : Operation) :
    (follow renamed op).target ≠ target := by
  by_cases hop : op.target ∈ renamed.map Prod.fst
  · obtain ⟨⟨source, id⟩, hr, hsource⟩ := List.mem_map.1 hop
    obtain rfl : source = op.target := hsource
    rw [follow_of_nodup h hr, Operation.target_retarget]
    exact (hnew _ hr).symm
  · rw [follow_of_not_mem hop]
    exact fun ht => hop (ht ▸ htarget)

namespace Renaming

variable {Memory : Type}

/-- What a renaming amounts to after some of the user's operations, when it began with the given
names taken. -/
structure Sound (generated done : List Operation) (start : List EntityId) (r : Renaming Memory) :
    Prop where
  /-- The renamed targets are those that both sides create. -/
  mem_targets_iff : ∀ target, target ∈ r.renamed.map Prod.fst ↔ BothCreate generated done target
  /-- No target is listed twice. -/
  nodup_targets : (r.renamed.map Prod.fst).Nodup
  /-- The new names are taken as well. -/
  taken_eq : r.taken = start ++ r.renamed.map newName
  /-- No new name was taken at the start. -/
  fresh : ∀ name ∈ r.renamed.map newName, name ∉ start
  /-- No new name is given twice. -/
  nodup_names : (r.renamed.map newName).Nodup

/-- One more user operation keeps the renaming sound. -/
theorem Sound.extend {generated done : List Operation} {start : List EntityId}
    {r : Renaming Memory} (h : r.Sound generated done start) (renamer : Renamer Memory)
    (op : Operation) :
    (r.extend renamer (TargetIndex.ofBatch generated) op).Sound generated (done ++ [op]) start := by
  unfold Renaming.extend
  split
  · next hskip =>
    refine ⟨fun target => ?_, h.nodup_targets, h.taken_eq, h.fresh, h.nodup_names⟩
    rw [h.mem_targets_iff, bothCreate_append_singleton]
    refine ⟨.inl, fun hor => hor.elim id ?_⟩
    rintro ⟨rfl, hc⟩
    rw [hc, Bool.not_true, Bool.or_false, isSome_newId?_iff, h.mem_targets_iff] at hskip
    exact hskip
  · next hnew =>
    rw [Bool.or_eq_true, not_or, isSome_newId?_iff, Bool.not_eq_true', Bool.not_eq_false] at hnew
    obtain ⟨hfirst, hc⟩ := hnew
    have hfree := isTaken_freshId renamer r.taken op.target r.memory
    generalize freshId renamer r.taken op.target r.memory = made at hfree
    have hname : newName (op.target, made.1) ∉ start ++ r.renamed.map newName := by
      rw [← h.taken_eq]
      simpa [isTaken, newName] using hfree
    rw [List.mem_append, not_or] at hname
    refine ⟨fun target => ?_, ?_, ?_, ?_, ?_⟩
    · rw [bothCreate_append_singleton, ← h.mem_targets_iff]
      simp [hc, eq_comm]
    · rw [List.map_append, List.nodup_append]
      refine ⟨h.nodup_targets, by simp, ?_⟩
      intro target ht other ho he
      have hto : target = op.target := he.trans (List.mem_singleton.1 ho)
      exact hfirst (hto ▸ ht)
    · simp [h.taken_eq, newName]
    · intro name hn
      rw [List.map_append, List.mem_append] at hn
      rcases hn with hn | hn
      · exact h.fresh name hn
      · rw [List.mem_singleton.1 hn]
        exact hname.1
    · rw [List.map_append, List.nodup_append]
      refine ⟨h.nodup_names, by simp, ?_⟩
      intro name hn other ho he
      have hno : name = newName (op.target, made.1) := he.trans (List.mem_singleton.1 ho)
      exact hname.2 (hno ▸ hn)

/-- A batch of user operations keeps the renaming sound. -/
theorem Sound.foldl {generated done : List Operation} {start : List EntityId}
    {r : Renaming Memory} (h : r.Sound generated done start) (renamer : Renamer Memory)
    (edited : List Operation) :
    (edited.foldl (Renaming.extend renamer (TargetIndex.ofBatch generated)) r).Sound generated
      (done ++ edited) start := by
  induction edited generalizing done r with
  | nil => simpa using h
  | cons op edited ih => simpa using ih (h.extend renamer op)

end Renaming

/-- The renaming of a batch is sound. -/
theorem sound_renameCollisions {Memory : Type} (renamer : Renamer Memory) (world : World)
    (generated edited : List Operation) (memory : Memory) :
    (renameCollisions renamer world (TargetIndex.ofBatch generated) generated edited memory).Sound
      generated edited (takenNames world generated edited) := by
  have hstart : Renaming.Sound generated [] (takenNames world generated edited)
      ({ taken := takenNames world generated edited, renamed := [], memory } :
        Renaming Memory) :=
    ⟨by simp [BothCreate], by simp, by simp, by simp, by simp⟩
  exact hstart.foldl renamer edited

/-- When no entity is created by both sides and nothing blocks, the batches are merged as they
are. -/
theorem detect_of_apart {Memory : Type} (renamer : Renamer Memory) (world : World)
    {generated edited : List Operation} (memory : Memory)
    (hcreate : ∀ target, ¬BothCreate generated edited target)
    (hblock : ∀ g ∈ generated, ∀ e ∈ edited, (Interaction.of g e).isBlocking = false) :
    detect renamer world generated edited memory = (⟨generated, edited, [], none⟩, memory) := by
  have hrename : ∀ r : Renaming Memory,
      edited.foldl (Renaming.extend renamer (TargetIndex.ofBatch generated)) r = r := by
    intro r
    refine List.foldlRecOn (motive := (· = r)) edited _ rfl fun last hlast op hop => ?_
    have hcollides : collides (TargetIndex.ofBatch generated) op = false := by
      rw [Bool.eq_false_iff, Ne, collides_ofBatch_iff]
      rintro ⟨hc, hg⟩
      exact hcreate op.target ⟨hg, op, hop, hc, rfl⟩
    simpa [Renaming.extend, hcollides] using hlast
  have hscan : ∀ found : Conflict,
      edited.foldl (Conflict.scan (TargetIndex.ofBatch generated)) found = found := by
    intro found
    refine List.foldlRecOn (motive := (· = found)) edited _ rfl fun last hlast e he => ?_
    refine List.foldlRecOn (motive := (· = found)) _ _ hlast fun last hlast g hg => ?_
    rw [TargetIndex.on_ofBatch] at hg
    simpa [Conflict.meet, hblock g (List.mem_filter.1 hg).1 e he] using hlast
  have hfollow : edited.map (follow []) = edited := List.map_id edited
  simp only [detect, renameCollisions, hrename, hfollow, conflict?, hscan, List.isEmpty_nil,
    if_true]

/-- With no operations of the generator nothing is renamed and nothing blocks. -/
theorem detect_nil {Memory : Type} (renamer : Renamer Memory) (world : World)
    (edited : List Operation) (memory : Memory) :
    detect renamer world [] edited memory = (⟨[], edited, [], none⟩, memory) :=
  detect_of_apart renamer world memory (by simp [BothCreate]) (by simp)

section Report

variable {Memory : Type} (renamer : Renamer Memory) (world : World)
  (generated edited : List Operation) (memory : Memory)

/-- The renamed targets are those that both batches create. -/
theorem mem_renamed_detect_iff (target : EntityId) :
    target ∈ (detect renamer world generated edited memory).1.renamed.map Prod.fst ↔
      BothCreate generated edited target :=
  (sound_renameCollisions renamer world generated edited memory).mem_targets_iff target

/-- No target is renamed twice. -/
theorem nodup_renamed_detect :
    ((detect renamer world generated edited memory).1.renamed.map Prod.fst).Nodup :=
  (sound_renameCollisions renamer world generated edited memory).nodup_targets

/-- No two renamed targets get the same name. -/
theorem nodup_newName_detect :
    ((detect renamer world generated edited memory).1.renamed.map newName).Nodup :=
  (sound_renameCollisions renamer world generated edited memory).nodup_names

variable {renamer world generated edited memory}

/-- No operation of either batch addresses a new name. -/
theorem target_ne_newName {r : EntityId × String}
    (hr : r ∈ (detect renamer world generated edited memory).1.renamed) {op : Operation}
    (hop : op ∈ generated ++ edited) : op.target ≠ newName r := by
  intro he
  refine (sound_renameCollisions renamer world generated edited memory).fresh (newName r)
    (List.mem_map_of_mem hr) ?_
  exact List.mem_append_left _ (he ▸ List.mem_map_of_mem hop)

/-- No live entity bears a new name. -/
theorem name_ne_newName {r : EntityId × String}
    (hr : r ∈ (detect renamer world generated edited memory).1.renamed) {e : Entity}
    (he : e ∈ world.liveEntities) : e.name ≠ newName r := by
  intro hn
  refine (sound_renameCollisions renamer world generated edited memory).fresh (newName r)
    (List.mem_map_of_mem hr) ?_
  exact List.mem_append_right _ (hn ▸ List.mem_map_of_mem he)

/-- In a built world no live entity is found under a new name. -/
theorem contains_newName (hw : world.Built) {r : EntityId × String}
    (hr : r ∈ (detect renamer world generated edited memory).1.renamed) :
    world.contains (newName r) = false := by
  rw [Bool.eq_false_iff, Ne, ← hw.mem_names_iff, List.mem_map]
  rintro ⟨e, he, hn⟩
  exact name_ne_newName hr he hn

/-- An operation on a renamed target follows it. -/
theorem follow_of_mem {id : String} {op : Operation}
    (hr : (op.target, id) ∈ (detect renamer world generated edited memory).1.renamed) :
    follow (detect renamer world generated edited memory).1.renamed op = op.retarget id :=
  follow_of_nodup (nodup_renamed_detect renamer world generated edited memory) hr

end Report

/-- Under a name that no followed operation addresses the merged batch is the generator's. -/
theorem Report.filter_merged_of_edited {report : Report} {target : EntityId}
    (h : ∀ e ∈ report.edited, e.target ≠ target) :
    report.merged.filter (fun op => op.target = target) =
      report.generated.filter fun op => op.target = target := by
  have hnil : report.edited.filter (fun op => op.target = target) = [] :=
    List.filter_eq_nil_iff.2 fun e he => by simpa using h e he
  rw [Report.merged, List.filter_append, hnil, List.append_nil]

/-- No creation of the user addresses an entity that the generator creates any more. -/
theorem target_ne_of_isCreate {Memory : Type} {renamer : Renamer Memory} {world : World}
    {generated edited : List Operation} {memory : Memory} {e g : Operation}
    (he : e ∈ (detect renamer world generated edited memory).1.edited) (hec : e.isCreate = true)
    (hg : g ∈ generated) (hgc : g.isCreate = true) : g.target ≠ e.target := by
  rw [edited_detect] at he
  obtain ⟨op, hop, rfl⟩ := List.mem_map.1 he
  by_cases hr : op.target ∈ (detect renamer world generated edited memory).1.renamed.map Prod.fst
  · obtain ⟨⟨target, id⟩, hm, rfl⟩ := List.mem_map.1 hr
    rw [follow_of_mem hm, Operation.target_retarget]
    exact target_ne_newName hm (List.mem_append_left _ hg)
  · rw [follow_of_not_mem hr] at hec ⊢
    intro ht
    exact hr ((mem_renamed_detect_iff renamer world generated edited memory op.target).2
      ⟨⟨g, hg, hgc, ht⟩, op, hop, hec, rfl⟩)

/-- Renaming is exact and fresh for every renamer. The search for a number ends at the first free
one, after at most as many as there are taken names. The renamed targets are those that both batches
create, each new name is free in both batches and the world, and no two are the same. The
generator's batch is left alone. Of the user's operations those on renamed targets get the new id
and keep everything else, and the others stay as they are. So nothing that the user creates is
created by the generator. -/
theorem detect_renaming {Memory : Type} (renamer : Renamer Memory) {world : World}
    (hw : world.Built) (generated edited : List Operation) (memory : Memory) :
    let report := (detect renamer world generated edited memory).1
    (∀ taken target base, let n := firstFreeNumber taken target base 1
      1 ≤ n ∧ n ≤ taken.length + 1 ∧ isTaken taken target (numbered base n) = false ∧
        ∀ k, 1 ≤ k → k < n → isTaken taken target (numbered base k) = true) ∧
    (∀ target, target ∈ report.renamed.map Prod.fst ↔ BothCreate generated edited target) ∧
    (report.renamed.map Prod.fst).Nodup ∧
    (∀ r ∈ report.renamed, (∀ op ∈ generated ++ edited, op.target ≠ newName r) ∧
      (∀ e ∈ world.liveEntities, e.name ≠ newName r) ∧ world.contains (newName r) = false) ∧
    (report.renamed.map newName).Nodup ∧
    report.generated = generated ∧
    report.edited.length = edited.length ∧
    (∀ r ∈ report.renamed, ∀ i : Nat,
      (∀ attributes, edited[i]? = some (.create r.1 attributes) →
        report.edited[i]? = some (.create ⟨r.1.kind, r.2⟩ attributes)) ∧
      (∀ key op value, edited[i]? = some (.modify r.1 key op value) →
        report.edited[i]? = some (.modify ⟨r.1.kind, r.2⟩ key op value)) ∧
      (edited[i]? = some (.delete r.1) →
        report.edited[i]? = some (.delete ⟨r.1.kind, r.2⟩))) ∧
    (∀ (i : Nat) (op : Operation), edited[i]? = some op →
      op.target ∉ report.renamed.map Prod.fst → report.edited[i]? = some op) ∧
    ∀ e ∈ report.edited, e.isCreate = true → ∀ g ∈ generated, g.isCreate = true →
      g.target ≠ e.target := by
  intro report
  have hfollow : ∀ {i : Nat} {op : Operation}, edited[i]? = some op →
      report.edited[i]? = some (follow report.renamed op) := by
    intro i op hop
    simp [report, edited_detect, hop]
  have hmoved : ∀ {r : EntityId × String} {i : Nat} {op : Operation}, r ∈ report.renamed →
      op.target = r.1 → edited[i]? = some op → report.edited[i]? = some (op.retarget r.2) := by
    rintro ⟨_, id⟩ i op hr rfl hop
    rw [hfollow hop, follow_of_mem hr]
  refine ⟨?_, mem_renamed_detect_iff renamer world generated edited memory,
    nodup_renamed_detect renamer world generated edited memory, ?_,
    nodup_newName_detect renamer world generated edited memory, rfl,
    length_edited_detect renamer world generated edited memory, ?_, ?_, ?_⟩
  · intro taken target base n
    have hle := firstFreeNumber_le taken target base 1
    exact ⟨le_firstFreeNumber taken target base 1, by omega,
      isTaken_firstFreeNumber taken target base 1,
      fun k hk hkn => isTaken_of_lt_firstFreeNumber hk hkn⟩
  · intro r hr
    exact ⟨fun op hop => target_ne_newName hr hop, fun e he => name_ne_newName hr he,
      contains_newName hw hr⟩
  · intro r hr i
    refine ⟨fun attributes hop => ?_, fun key op value hop => ?_, fun hop => ?_⟩
    · rw [hmoved hr rfl hop, Operation.retarget_create]
    · rw [hmoved hr rfl hop, Operation.retarget_modify]
    · rw [hmoved hr rfl hop, Operation.retarget_delete]
  · intro i op hop hr
    rw [hfollow hop, follow_of_not_mem hr]
  · intro e he hec g hg hgc
    exact target_ne_of_isCreate he hec hg hgc

/-- A renamer that proposes the colliding id itself for ever ends at the first number that is free
in the world, too. What the user does to the sword is done to the renamed one, with the same
attributes and values, and what the user does to the hero stays. -/
theorem detect_renaming_stubborn :
    let renamer : Renamer Unit := ⟨"stubborn", fun target memory => (target.id, memory)⟩
    let world := (World.empty.apply [.create ⟨.item, "sword_1"⟩ []]).1
    let sword : EntityId := ⟨.item, "sword"⟩
    let second : EntityId := ⟨.item, "sword_2"⟩
    let hero : EntityId := ⟨.character, "hero"⟩
    let generated : List Operation := [.create sword []]
    let edited : List Operation := [.create sword [("dmg", .int 3), ("runes", .list [.null])],
      .modify hero "hp" .subtract (.int 1), .modify sword "owner" .equal (.text "user"),
      .delete sword]
    let report := (detect renamer world generated edited ()).1
    world.Built ∧ report.renamed = [(sword, "sword_2")] ∧
      (∀ r ∈ report.renamed, (∀ op ∈ generated ++ edited, op.target ≠ newName r) ∧
        (∀ e ∈ world.liveEntities, e.name ≠ newName r) ∧ world.contains (newName r) = false) ∧
      report.edited = [.create second [("dmg", .int 3), ("runes", .list [.null])],
        .modify hero "hp" .subtract (.int 1), .modify second "owner" .equal (.text "user"),
        .delete second] ∧
      ∀ e ∈ report.edited, e.isCreate = true → ∀ g ∈ generated, g.isCreate = true →
        g.target ≠ e.target := by
  intro renamer world sword second hero generated edited report
  have hw : world.Built := World.Built.empty.apply _
  obtain ⟨-, -, -, hfresh, -, -, hlength, hmoved, hkept, hcreate⟩ :=
    detect_renaming renamer hw generated edited ()
  have hrenamed : report.renamed = [(sword, "sword_2")] := by decide +kernel
  have hr : (sword, "sword_2") ∈ report.renamed := hrenamed ▸ List.mem_singleton_self _
  refine ⟨hw, hrenamed, hfresh, List.ext_getElem? fun i => ?_, hcreate⟩
  match i with
  | 0 => exact (hmoved _ hr 0).1 _ rfl
  | 1 => exact hkept 1 _ rfl (by rw [hrenamed]; decide)
  | 2 => exact (hmoved _ hr 2).2.1 _ _ _ rfl
  | 3 => exact (hmoved _ hr 3).2.2 rfl
  | i + 4 =>
    have hle : report.edited.length ≤ i + 4 := by
      rw [hlength]
      exact Nat.le_add_left 4 i
    exact List.getElem?_eq_none hle

end BranchingStory.Merge
