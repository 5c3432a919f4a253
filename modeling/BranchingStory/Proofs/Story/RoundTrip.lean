import BranchingStory.Proofs.World.RoundTrip
import BranchingStory.Story.Wire

/-!
# Snapshots are read back from their text

Every part of a record conveys its field: what may be absent is written as null, and no world, even
an empty one, is written so. A snapshot whose stored maps are storable is therefore read back from
its text, field by field, as long as the text nests no deeper than is allowed.
-/

namespace BranchingStory

open Json (Conveys)

section Containers

variable {α : Type} {read : Json → Option α} {write : α → Json}

/-- An array of documents conveys the list of what they convey. -/
theorem conveys_list {items : List α} (h : ∀ a ∈ items, Conveys read (write a) a) :
    Conveys (listOf? read) (.array (items.map write)) items := by
  refine ⟨?_, ?_⟩
  · rw [Json.lasting_array, List.forall_mem_map]
    exact fun a ha => (h a ha).lasting
  · rw [listOf?, Json.array?, Option.bind_some]
    induction items with
    | nil => rfl
    | cons a items ih =>
      rw [List.forall_mem_cons] at h
      rw [List.map_cons, List.mapM_cons, h.1.read_eq, ih h.2]
      rfl

/-- What may be absent is conveyed, if nothing that is there is written as null. -/
theorem conveys_optionToJson {o : Option α} (hnull : ∀ a, write a ≠ .null)
    (h : ∀ a ∈ o, Conveys read (write a) a) :
    Conveys (Json.nullable? read) (optionToJson write o) o := by
  cases o with
  | none => exact ⟨trivial, rfl⟩
  | some a =>
    have ha := h a rfl
    refine ⟨ha.lasting, ?_⟩
    rw [optionToJson, Json.nullable?, ha.read_eq, Option.map_some]
    exact hnull a

end Containers

/-- A count that fits into 64 bits is conveyed. -/
theorem conveys_countToJson {n : Nat} (h : n < Json.countBound) :
    Conveys Json.count? (countToJson n) n := by
  have hbound : (n : Int) < UInt64.size := Int.ofNat_lt.2 h
  refine ⟨Json.Number.readsBack_integer (by simp) hbound, ?_⟩
  rw [countToJson, Json.count?, if_pos ⟨Int.natCast_nonneg n, Int.ofNat_lt.2 h⟩, Int.toNat_natCast]

/-- A phase is conveyed by its name. -/
theorem Status.conveys_toJson (s : Status) : Conveys ofJson? s.toJson s := ⟨trivial, ofName?_name s⟩

/-- A game state with storable settings is conveyed by its document. -/
theorem GameState.conveys_toJson {g : GameState} (h : Value.Storable g.settings) :
    Conveys ofJson? g.toJson g :=
  ⟨h.conveys.lasting, by rw [ofJson?, toJson, h.conveys.read_eq, Option.map_some]⟩

namespace BlockRecord

/-- The worlds of a record. -/
def worlds (r : BlockRecord) : List World := r.input :: (r.merged.toList ++ r.current.toList)

/-- All maps of a record: the facts, the parameters, the settings and the attributes of every entity
in its worlds. -/
def maps (r : BlockRecord) : List (Entries Value) :=
  r.metadata :: r.childParams :: r.gameState.settings :: r.worlds.flatMap World.maps

/-- A record with storable maps is conveyed by its document. -/
theorem conveys_toJson {r : BlockRecord} (hselected : ∀ i ∈ r.selected, i < Json.countBound)
    (h : ∀ m ∈ r.maps, Value.Storable m) : Conveys ofJson? r.toJson r := by
  rw [maps, List.forall_mem_cons, List.forall_mem_cons, List.forall_mem_cons,
    List.forall_mem_flatMap, worlds, List.forall_mem_cons, List.forall_mem_append] at h
  obtain ⟨hmetadata, hparams, hsettings, hinput, hmerged, hcurrent⟩ := h
  have hworld : ∀ w : World, w.toJson ≠ .null := nofun
  have hparent : Conveys (Json.nullable? Json.string?) (optionToJson BlockId.toJson r.parent)
      r.parent := conveys_optionToJson nofun fun id _ => Json.conveys_string id
  have hchildren : Conveys (listOf? Json.string?) (.array (r.children.map BlockId.toJson))
      r.children := conveys_list fun id _ => Json.conveys_string id
  have hselected := conveys_optionToJson nofun fun i hi => conveys_countToJson (hselected i hi)
  have hmetadata := hmetadata.conveys
  have hparams := hparams.conveys
  have hsettings := GameState.conveys_toJson hsettings
  have hinput := World.conveys_toJson hinput
  have hmerged := conveys_optionToJson hworld
    fun w hw => World.conveys_toJson (hmerged w (Option.mem_toList.2 hw))
  have hcurrent := conveys_optionToJson hworld
    fun w hw => World.conveys_toJson (hcurrent w (Option.mem_toList.2 hw))
  have hstatus := Status.conveys_toJson r.status
  have hparts := Json.parts?_object false r.toJson fieldNames rfl rfl (by decide)
  refine ⟨?_, ?_⟩
  · rw [toJson, Json.lasting_object]
    simpa using ⟨trivial, hparent.lasting, hchildren.lasting, hselected.lasting, hstatus.lasting,
      trivial, hmetadata.lasting, hparams.lasting, hsettings.lasting, hinput.lasting,
      hmerged.lasting, hcurrent.lasting⟩
  · rw [ofJson?, hparts]
    simp only [List.map_cons, List.map_nil, Json.withDefault?, hparent.read_eq, hchildren.read_eq,
      hselected.read_eq, hstatus.read_eq, hmetadata.read_eq, hparams.read_eq, hsettings.read_eq,
      hinput.read_eq, hmerged.read_eq, hcurrent.read_eq]
    rfl

end BlockRecord

namespace Snapshot

/-- All maps stored in a snapshot. -/
def maps (s : Snapshot) : List (Entries Value) := s.blocks.flatMap BlockRecord.maps

/-- A snapshot with storable maps is conveyed by its document. -/
theorem conveys_toJson {s : Snapshot}
    (hselected : ∀ r ∈ s.blocks, ∀ i ∈ r.selected, i < Json.countBound)
    (h : ∀ m ∈ s.maps, Value.Storable m) : Conveys ofJson? s.toJson s := by
  rw [maps, List.forall_mem_flatMap] at h
  have hblocks := conveys_list fun r hr => BlockRecord.conveys_toJson (hselected r hr) (h r hr)
  have hparts := Json.parts?_object false s.toJson ["root_id", "blocks"] rfl rfl (by decide)
  refine ⟨?_, ?_⟩
  · rw [toJson, Json.lasting_object]
    simpa using ⟨trivial, hblocks.lasting⟩
  · rw [ofJson?, hparts]
    simp only [List.map_cons, List.map_nil, hblocks.read_eq]
    rfl

/-- A snapshot is read back from its text, every field of every record as it was, if the text nests
no deeper than is allowed, no stored value has a part that is misread, and every finite number is
read back from its text. Names within a stored map are distinct and counts fit into 64 bits. -/
theorem ofText?_toText {s : Snapshot} (hdepth : s.toJson.depth ≤ Json.maxDepth)
    (hselected : ∀ r ∈ s.blocks, ∀ i ∈ r.selected, i < Json.countBound)
    (hmaps : ∀ m ∈ s.maps, (Value.map m).WellFormed)
    (hfaithful : ∀ m ∈ s.maps, ∀ e ∈ m, ∀ w ∈ e.2.parts, ¬ w.Misread)
    (hfloats : ∀ m ∈ s.maps, ∀ e ∈ m, e.2.FloatsReadBack) :
    ofText? s.toText = some s :=
  (conveys_toJson hselected fun m hm => ⟨hmaps m hm, hfaithful m hm, hfloats m hm⟩).read_text hdepth

/-- Two records in no particular order: entries of a record and of an entity that look like a
reference, a destroyed entity, numbers with a fraction and minus zero, a world after the merge and
one after edits that is empty. -/
theorem ofText?_toText_lookalike :
    let lookalike : Entries Value := [("$ref", .map [("kind", .text "Item"), ("id", .text "rope")])]
    let lamp : Entity := ⟨⟨.item, "lamp"⟩, lookalike, false⟩
    let rope : Entity := ⟨⟨.item, "rope"⟩, [("length", .float ⟨0x3ff8000000000000⟩),
      ("owner", .ref ⟨.character, "mia"⟩)], true⟩
    let world : World := ⟨⟨[("lamp", lamp), ("rope", rope)], by decide +kernel⟩, .empty, .empty⟩
    let root : BlockRecord :=
      { id := "b1", parent := none, children := ["b3", "b2"], selected := some 1,
        status := .resolvingConflict, content := "A \"lamp\"\n", metadata := lookalike,
        childParams := [],
        gameState := ⟨[("pitch", .float (.zero true)), ("tempo", .list [.int (-3), .null])]⟩,
        input := world, merged := some world, current := some .empty }
    let child : BlockRecord :=
      { id := "b2", parent := some "b1", children := [], selected := none, status := .idle,
        content := "", metadata := [], childParams := lookalike, gameState := .empty,
        input := .empty, merged := none, current := none }
    let s : Snapshot := ⟨"b1", [child, root]⟩
    ofText? s.toText = some s := by
  intro lookalike lamp rope world root child s
  have hfloat : (Json.Number.float ⟨0x3ff8000000000000⟩).ReadsBack := by decide +kernel
  have hzero : (Json.Number.float (.zero true)).ReadsBack := by decide +kernel
  have hmaps : s.maps = [[], lookalike, [], lookalike, [], root.gameState.settings, lookalike,
      rope.attributes, lookalike, rope.attributes] := rfl
  have hlookalike : ∀ e ∈ lookalike, e.2.FloatsReadBack := by
    simp [lookalike, Value.FloatsReadBack, Value.parts, Value.entryParts]
  have hsettings : ∀ e ∈ root.gameState.settings, e.2.FloatsReadBack := by
    simp only [root, List.forall_mem_cons]
    simp [Value.FloatsReadBack, Value.parts, Value.itemParts, hzero]
  have hrope : ∀ e ∈ rope.attributes, e.2.FloatsReadBack := by
    simp only [rope, List.forall_mem_cons]
    simp [Value.FloatsReadBack, Value.parts, hfloat]
  refine ofText?_toText (by decide +kernel) ?_ ?_ (by decide +kernel) ?_
  · simp [s, root, child, Json.countBound, UInt64.size]
  · rw [hmaps]
    simp [lookalike, root, rope, Value.WellFormed, Value.WellFormedEntries, Value.WellFormedItems,
      Entries.Distinct, Entries.keys]
  · rw [hmaps]
    have hnone : ∀ e ∈ ([] : Entries Value), e.2.FloatsReadBack := List.forall_mem_nil _
    simp only [List.forall_mem_cons]
    exact ⟨hnone, hlookalike, hnone, hlookalike, hnone, hsettings, hlookalike, hrope, hlookalike,
      hrope, List.forall_mem_nil _⟩

end Snapshot

end BranchingStory
