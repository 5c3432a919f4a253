import BranchingStory.Proofs.Text.ByteOrder
import BranchingStory.Proofs.World.Built

/-!
# How built worlds are represented

An operation leaves the attributes of an entity with distinct keys, none of them the key of a core
attribute in any letter case, and it never takes a stored entity away. So a built world has nothing
but such entities, each stored under its own name, and lists those of a kind in the order of the
bytes of their ids.
-/

namespace BranchingStory

/-- A key names no core attribute exactly when it differs from their keys in more than the case of
letters. -/
theorem CoreAttribute.ofKey?_eq_none_iff {key : String} :
    ofKey? key = none ↔ ∀ core : CoreAttribute, Text.sameLetters core.key key = false := by
  rw [ofKey?, List.find?_eq_none]
  refine ⟨fun h core => by simpa using h core (by cases core <;> decide), fun h core _ => ?_⟩
  rw [h core]
  exact Bool.false_ne_true

namespace Entity

variable {e next : Entity} {key : String}

/-- The attributes have distinct keys, and none has the key of a core attribute. -/
structure Tidy (e : Entity) : Prop where
  /-- No key occurs twice. -/
  distinct : Entries.Distinct e.attributes
  /-- No key is that of a core attribute in any letter case. -/
  noCore : ∀ key ∈ Entries.keys e.attributes, ∀ core : CoreAttribute,
    Text.sameLetters core.key key = false

/-- A new entity has no attributes. -/
theorem tidy_new (name : EntityId) : (Entity.new name).Tidy :=
  ⟨List.nodup_nil, fun _ hkey => by cases hkey⟩

/-- An attribute whose key is not that of a core attribute keeps the attributes tidy. -/
theorem Tidy.put (h : e.Tidy) (hkey : CoreAttribute.ofKey? key = none) (v : Value) :
    { e with attributes := Entries.put key v e.attributes }.Tidy := by
  refine ⟨h.distinct.put key v, fun other hother => ?_⟩
  change other ∈ Entries.keys (Entries.put key v e.attributes) at hother
  rw [Entries.keys_put] at hother
  split at hother
  · exact h.noCore other hother
  · rcases List.mem_append.1 hother with hother | hother
    · exact h.noCore other hother
    · obtain rfl := List.mem_singleton.1 hother
      exact CoreAttribute.ofKey?_eq_none_iff.1 hkey

/-- Giving an attribute a value keeps the attributes tidy. -/
theorem Tidy.setAttribute {v : Value} (h : e.Tidy) (hset : e.setAttribute key v = .ok next) :
    next.Tidy := by
  unfold Entity.setAttribute at hset
  split at hset
  · cases hset
  · cases hset
  · split at hset <;> cases hset
    exact ⟨h.distinct, h.noCore⟩
  · next hkey =>
    cases hset
    exact h.put hkey v

/-- Giving several attributes their values keeps the attributes tidy. -/
theorem Tidy.setAttributes {attributes : Entries Value} (h : e.Tidy)
    (hset : e.setAttributes attributes = .ok next) : next.Tidy := by
  induction attributes generalizing e with
  | nil =>
    cases hset
    exact h
  | cons entry attributes ih =>
    unfold Entity.setAttributes at hset
    split at hset
    · next hs => exact ih (h.setAttribute hs) hset
    · cases hset

/-- Changing an attribute keeps the attributes tidy. -/
theorem Tidy.modifyAttribute {op : Operator} {operand : Value} (h : e.Tidy)
    (hmodify : e.modifyAttribute key op operand = .ok next) : next.Tidy := by
  unfold Entity.modifyAttribute at hmodify
  split at hmodify
  · split at hmodify
    · exact h.setAttribute hmodify
    · cases hmodify
  · next hcore =>
    have hkey : CoreAttribute.ofKey? key = none := by simpa using hcore
    split at hmodify <;> cases hmodify
    · exact h.put hkey _
    · exact h

end Entity

/-- An entity that an operation leaves in a slot is tidy. -/
theorem Slot.tidy_step {slot : Slot} {op : Operation} {e : Entity}
    (hslot : ∀ d, slot = some d → d.Tidy) (h : step slot op = .ok (some e)) : e.Tidy := by
  rcases step_cases h with ⟨target, attributes, d, -, -, hd, he⟩ |
    ⟨target, key, o, v, d, changed, -, hs, -, -, -, hm, he⟩ | ⟨target, -, he⟩
  · cases he
    exact (Entity.tidy_new target).setAttributes hd
  · cases he
    exact (hslot d hs).modifyAttribute hm
  · obtain ⟨d, hd, rfl⟩ := Option.map_eq_some_iff.1 he.symm
    exact ⟨(hslot d hd).distinct, (hslot d hd).noCore⟩

namespace World

variable {w : World}

/-- What is not stored after an operation was not stored before. -/
theorem stored?_eq_none_of_applyOne {op : Operation} {target : EntityId}
    (h : (w.applyOne op).1.stored? target = none) : w.stored? target = none := by
  rw [stored?_applyOne] at h
  split at h
  · unfold Slot.applyOne at h
    split at h
    · next hs =>
      subst h
      exact Slot.eq_none_of_step hs
    · exact h
  · exact h

/-- What is not stored after a batch was not stored before. -/
theorem stored?_eq_none_of_apply {ops : List Operation} {target : EntityId}
    (h : (w.apply ops).1.stored? target = none) : w.stored? target = none := by
  induction ops generalizing w with
  | nil => exact h
  | cons op ops ih => exact stored?_eq_none_of_applyOne (ih h)

/-- An entity is listed among those of its kind with the id that it is stored under. -/
theorem stored?_of_mem_entries {kind : EntityKind} {entry : String × Entity}
    (h : entry ∈ (w.table kind).entries) : w.stored? ⟨kind, entry.1⟩ = some entry.2 :=
  Table.mem_entries_iff.1 h

/-- The entities of a kind bear the ids that they are stored under, in the same order. -/
theorem KeepsNames.map_name_entities (h : w.KeepsNames) (kind : EntityKind) :
    (w.entities kind).map Entity.name = (w.table kind).keys.map (EntityId.mk kind) := by
  rw [entities, Table.values, Table.keys, List.map_map, List.map_map]
  exact List.map_congr_left fun entry hentry => h _ _ (stored?_of_mem_entries hentry)

/-- The ids in a table increase strictly in the order of their bytes. -/
theorem pairwise_bytes_keys (t : Table Entity) :
    t.keys.Pairwise fun id other => Text.bytes id < Text.bytes other :=
  List.pairwise_map.2 (t.sorted.imp fun h => Text.lt_iff_bytes_lt.1 h)

/-- In a built world every entity bears the name that it is stored under, its attributes have
distinct keys and none has the key of a core attribute, and the entities of a kind are listed by
their ids, which increase strictly in the order of their bytes. No batch takes an entity away. -/
theorem Built.represented (h : w.Built) :
    (∀ target e, w.stored? target = some e → e.name = target ∧ e.Tidy) ∧
    (∀ kind, (w.entities kind).map Entity.name = (w.table kind).keys.map (EntityId.mk kind) ∧
      (w.table kind).keys.Pairwise fun id other => Text.bytes id < Text.bytes other) ∧
    ∀ ops target, (w.stored? target).isSome → ((w.apply ops).1.stored? target).isSome := by
  have htidy : w.Stores fun _ e => e.Tidy := h.stores Slot.tidy_step
  refine ⟨fun target e he => ⟨h.keepsNames target e he, htidy target e he⟩, fun kind =>
    ⟨h.keepsNames.map_name_entities kind, pairwise_bytes_keys _⟩, fun ops target hsome => ?_⟩
  rw [← Option.ne_none_iff_isSome] at hsome ⊢
  exact fun hnone => hsome (stored?_eq_none_of_apply hnone)

/-- A creation and a change that are refused for a core attribute, and an entity that is created,
destroyed, created anew with a key given twice, and destroyed again. -/
theorem Built.represented_recreated :
    let target : EntityId := ⟨.item, "é"⟩
    let w := (World.empty.apply [.create target [("hp", .int 1)],
      .create ⟨.item, "b"⟩ [("entityID", .text "a")], .create ⟨.item, "z"⟩ [],
      .modify ⟨.item, "z"⟩ "ISDESTROYED" .add (.bool true), .delete target,
      .create target [("hp", .int 2), ("mp", .null), ("hp", .int 3)]]).1
    w.Built ∧ w.items.keys = ["z", "é"] ∧
      (∃ e, w.stored? target = some e ∧ Entries.keys e.attributes = ["hp", "mp"] ∧
        e.name = target ∧ e.Tidy) ∧
      (w.entities .item).map Entity.name = [⟨.item, "z"⟩, target] ∧
      w.items.keys.Pairwise (fun id other => Text.bytes id < Text.bytes other) ∧
      ((w.apply [.delete target]).1.stored? target).isSome := by
  intro target w
  have hw : w.Built := Built.empty.apply _
  have hkeys : w.items.keys = ["z", "é"] := by
    subst w target
    decide +kernel
  have hattributes : (w.stored? target).map (fun e => Entries.keys e.attributes) =
      some ["hp", "mp"] := by
    subst w target
    decide +kernel
  obtain ⟨e, he, hattributes⟩ := Option.map_eq_some_iff.1 hattributes
  obtain ⟨hentities, hlisted, hkept⟩ := hw.represented
  obtain ⟨hname, htidy⟩ := hentities target e he
  obtain ⟨hnames, hbytes⟩ := hlisted .item
  refine ⟨hw, hkeys, ⟨e, he, hattributes, hname, htidy⟩, hnames.trans ?_, hbytes,
    hkept _ _ (by rw [he]; rfl)⟩
  rw [table, hkeys]
  rfl

end World

end BranchingStory
