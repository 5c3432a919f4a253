import BranchingStory.Proofs.Json.RoundTrip
import BranchingStory.Proofs.Value.Reading

/-!
# How much of a value is read back from its text

The text of a value is always read as a value. Two things do not come back: a number that is not
finite is written as null, and a map with the single key of references is taken for a reference if
what it holds is written like the name of an entity. A value that has no such part at any depth is
read back as it was, and no other value is.
-/

namespace BranchingStory

/-- A kind is read back from its document. -/
theorem EntityKind.ofJson?_toJson (k : EntityKind) : ofJson? k.toJson = some k :=
  ofName?_name k

/-- The name of an entity is read back from its document. -/
theorem EntityId.ofJson?_toJson (e : EntityId) : ofJson? e.toJson = some e := by
  have hparts := Json.parts?_object true e.toJson ["kind", "id"] rfl rfl (by decide)
  rw [ofJson?, hparts]
  simp only [List.map_cons, List.map_nil, EntityKind.ofJson?_toJson, Json.string?]
  rfl

namespace Value

mutual

/-- The value and all values in it, at any depth. -/
def parts : Value → List Value
  | list items => list items :: itemParts items
  | map entries => map entries :: entryParts entries
  | v => [v]

/-- The items and all values in them. -/
def itemParts : List Value → List Value
  | [] => []
  | v :: rest => parts v ++ itemParts rest

/-- The values by name and all values in them. -/
def entryParts : List (String × Value) → List Value
  | [] => []
  | (_, v) :: rest => parts v ++ entryParts rest

end

/-- The parts of items are those of each in turn. -/
theorem itemParts_eq_flatMap (items : List Value) : itemParts items = items.flatMap parts := by
  induction items with
  | nil => rfl
  | cons v items ih => rw [itemParts, ih, List.flatMap_cons]

/-- The parts of entries are those of each value in turn. -/
theorem entryParts_eq_flatMap (entries : Entries Value) :
    entryParts entries = entries.flatMap fun e => e.2.parts := by
  induction entries with
  | nil => rfl
  | cons e entries ih => rw [entryParts, ih, List.flatMap_cons]

/-- What holds of all parts of a list holds of the list and of all parts of its items. -/
theorem forall_parts_list {P : Value → Prop} {items : List Value} :
    (∀ w ∈ (list items).parts, P w) ↔ P (list items) ∧ ∀ v ∈ items, ∀ w ∈ v.parts, P w := by
  rw [parts, List.forall_mem_cons, itemParts_eq_flatMap, List.forall_mem_flatMap]

/-- What holds of all parts of a map holds of the map and of all parts of its values. -/
theorem forall_parts_map {P : Value → Prop} {entries : Entries Value} :
    (∀ w ∈ (map entries).parts, P w) ↔ P (map entries) ∧ ∀ e ∈ entries, ∀ w ∈ e.2.parts, P w := by
  rw [parts, List.forall_mem_cons, entryParts_eq_flatMap, List.forall_mem_flatMap]

/-- The value does not come back whatever it holds: it is a number that is not finite, or a map with
the single key of references over what is written like the name of an entity. -/
def Misread : Value → Prop
  | float x => x.isFinite = false
  | map [(key, w)] => key = refKey ∧ (EntityId.ofJson? w.toJson).isSome
  | _ => False

instance : DecidablePred Misread
  | float x => inferInstanceAs (Decidable (x.isFinite = false))
  | map [(key, w)] =>
    inferInstanceAs (Decidable (key = refKey ∧ (EntityId.ofJson? w.toJson).isSome))
  | null | bool _ | int _ | text _ | list _ | ref _ | map [] | map (_ :: _ :: _) => isFalse id

/-- No part of the value is misread. -/
def Faithful (v : Value) : Prop := ∀ w ∈ v.parts, ¬ w.Misread

/-- Every finite number in the value is read back from its text. -/
def FloatsReadBack (v : Value) : Prop :=
  ∀ w ∈ v.parts, ∀ x, w = float x → x.isFinite = true → (Json.Number.float x).ReadsBack

/-- A map is misread when its fields are those of a reference. -/
theorem misread_map {entries : Entries Value} :
    (map entries).Misread ↔ refOf? (entriesToJson entries) ≠ none := by
  unfold Misread
  split
  · next h => cases h
  · next key w h =>
    cases h
    rw [entriesToJson, entriesToJson, refOf?]
    split <;> simp_all [Option.isSome_iff_ne_none]
  · next hnone =>
    rcases entries with _ | ⟨e, _ | ⟨f, entries⟩⟩
    · simp [entriesToJson, refOf?]
    · exact (hnone e.1 e.2 rfl).elim
    · simp [entriesToJson, refOf?]

/-- A list is faithful when its items are. -/
theorem faithful_list {items : List Value} :
    (list items).Faithful ↔ ∀ v ∈ items, v.Faithful :=
  forall_parts_list.trans (and_iff_right id)

/-- A map is faithful when it is not misread and its values are faithful. -/
theorem faithful_map {entries : Entries Value} : (map entries).Faithful ↔
    refOf? (entriesToJson entries) = none ∧ ∀ e ∈ entries, e.2.Faithful := by
  refine forall_parts_map.trans (and_congr_left fun _ => ?_)
  rw [misread_map, not_not]

/-- An integer is read as itself. -/
theorem ofNumber_integer (i : Int64) : ofNumber (.integer i.toInt) = int i := by
  have hback : i.toInt.toInt64 = i := Int64.ofInt_toInt i
  rw [ofNumber, hback, if_pos rfl]

/-- The document of a reference is read as the reference. -/
theorem ofJson?_refToJson (target : EntityId) : ofJson? (refToJson target) = some (ref target) := by
  rw [refToJson, ofJson?, refOf?, if_pos rfl, EntityId.ofJson?_toJson]

mutual

/-- The document of a value is read as a value, and as the same one exactly when it is faithful. -/
theorem ofJson?_toJson : ∀ {v : Value}, v.WellFormed →
    ∃ u, ofJson? v.toJson = some u ∧ (u = v ↔ v.Faithful)
  | null, _ => ⟨null, rfl, iff_of_true rfl (by simp [Faithful, parts, Misread])⟩
  | bool b, _ => ⟨bool b, rfl, iff_of_true rfl (by simp [Faithful, parts, Misread])⟩
  | int i, _ => by
    refine ⟨int i, ?_, iff_of_true rfl (by simp [Faithful, parts, Misread])⟩
    rw [toJson, ofJson?, ofNumber_integer]
  | float x, _ => by
    rw [toJson]
    split
    · next hx => exact ⟨float x, rfl, iff_of_true rfl (by simp [Faithful, parts, Misread, hx])⟩
    · next hx => exact ⟨null, rfl, by simp [Faithful, parts, Misread, hx]⟩
  | text s, _ => ⟨text s, rfl, iff_of_true rfl (by simp [Faithful, parts, Misread])⟩
  | list items, hw => by
    rw [WellFormed] at hw
    obtain ⟨us, hus, hiff⟩ := ofItems?_itemsToJson hw
    refine ⟨list us, ?_, ?_⟩
    · rw [toJson, ofJson?, hus, Option.map_some]
    · rw [list.injEq, hiff, faithful_list]
  | ref target, _ =>
    ⟨ref target, ofJson?_refToJson target, iff_of_true rfl (by simp [Faithful, parts, Misread])⟩
  | map entries, hw => by
    rw [WellFormed] at hw
    rw [toJson, ofJson?, faithful_map]
    cases href : refOf? (entriesToJson entries) with
    | some target => exact ⟨ref target, rfl, by simp⟩
    | none =>
      obtain ⟨pairs, hpairs, hkeys, hiff⟩ := ofFields?_entriesToJson hw.2
      have hdistinct : Entries.Distinct pairs := by
        rw [Entries.Distinct, hkeys]
        exact hw.1
      refine ⟨map pairs, ?_, ?_⟩
      · rw [hpairs, Option.map_some, hdistinct.ofList_eq]
      · rw [map.injEq, hiff, and_iff_right rfl]

/-- The documents of items are read as items, and as the same ones exactly when these are
faithful. -/
theorem ofItems?_itemsToJson : ∀ {items : List Value}, WellFormedItems items →
    ∃ us, ofItems? (itemsToJson items) = some us ∧ (us = items ↔ ∀ v ∈ items, v.Faithful)
  | [], _ => ⟨[], rfl, by simp⟩
  | v :: items, hw => by
    rw [WellFormedItems] at hw
    obtain ⟨u, hu, hv⟩ := ofJson?_toJson hw.1
    obtain ⟨us, hus, hitems⟩ := ofItems?_itemsToJson hw.2
    refine ⟨u :: us, ?_, ?_⟩
    · rw [itemsToJson, ofItems?, hu, hus]
    · rw [List.cons.injEq, hv, hitems, List.forall_mem_cons]

/-- The fields of a map are read as entries with the same names, and as the same ones exactly when
their values are faithful. -/
theorem ofFields?_entriesToJson : ∀ {entries : List (String × Value)}, WellFormedEntries entries →
    ∃ pairs, ofFields? (entriesToJson entries) = some pairs ∧
      Entries.keys pairs = Entries.keys entries ∧
      (pairs = entries ↔ ∀ e ∈ entries, e.2.Faithful)
  | [], _ => ⟨[], rfl, rfl, by simp⟩
  | (key, v) :: entries, hw => by
    rw [WellFormedEntries] at hw
    obtain ⟨u, hu, hv⟩ := ofJson?_toJson hw.1
    obtain ⟨pairs, hpairs, hkeys, hentries⟩ := ofFields?_entriesToJson hw.2
    refine ⟨(key, u) :: pairs, ?_, congrArg (key :: ·) hkeys, ?_⟩
    · rw [entriesToJson, ofFields?, hu, hpairs]
    · rw [List.cons.injEq, Prod.mk.injEq, and_iff_right rfl, hv, hentries, List.forall_mem_cons]

end

/-- Nothing of the document of a reference is lost in its text. -/
theorem lasting_refToJson (target : EntityId) : (refToJson target).Lasting := by
  simp [refToJson, EntityId.toJson, EntityKind.toJson, Json.Lasting, Json.LastingFields]

/-- An integer is read back from its text. -/
theorem readsBack_int (i : Int64) : (Json.Number.integer i.toInt).ReadsBack :=
  Json.Number.readsBack_integer i.minValue_le_toInt (by have := i.toInt_lt; simp; omega)

mutual

/-- Nothing of a value's document is lost in its text when finite numbers are read back. -/
theorem lasting_toJson : ∀ {v : Value}, v.FloatsReadBack → v.toJson.Lasting
  | null, _ => trivial
  | bool _, _ => trivial
  | int i, _ => readsBack_int i
  | float x, h => by
    rw [toJson]
    split
    · next hx => exact h _ List.mem_cons_self x rfl hx
    · trivial
  | text _, _ => trivial
  | list items, h => by
    rw [toJson, Json.Lasting]
    exact lasting_itemsToJson (forall_parts_list.1 h).2
  | ref target, _ => lasting_refToJson target
  | map entries, h => by
    rw [toJson, Json.Lasting]
    exact lasting_entriesToJson (forall_parts_map.1 h).2

/-- Nothing of the documents of items is lost when finite numbers are read back. -/
theorem lasting_itemsToJson : ∀ {items : List Value}, (∀ v ∈ items, v.FloatsReadBack) →
    Json.LastingItems (itemsToJson items)
  | [], _ => trivial
  | v :: items, h => by
    rw [List.forall_mem_cons] at h
    rw [itemsToJson, Json.LastingItems]
    exact ⟨lasting_toJson h.1, lasting_itemsToJson h.2⟩

/-- Nothing of the fields of a map is lost when finite numbers are read back. -/
theorem lasting_entriesToJson : ∀ {entries : List (String × Value)},
    (∀ e ∈ entries, e.2.FloatsReadBack) → Json.LastingFields (entriesToJson entries)
  | [], _ => trivial
  | (key, v) :: entries, h => by
    rw [List.forall_mem_cons] at h
    rw [entriesToJson, Json.LastingFields]
    exact ⟨lasting_toJson h.1, lasting_entriesToJson h.2⟩

end

/-- The entries can be had back from their document: within each map the names are distinct, nothing
is misread at any depth, and finite numbers are read back from their text. -/
structure Storable (entries : Entries Value) : Prop where
  wellFormed : (map entries).WellFormed
  faithful : ∀ e ∈ entries, e.2.Faithful
  floats : ∀ e ∈ entries, e.2.FloatsReadBack

/-- Storable entries are conveyed by their document. The entry list itself is no value, so it may
well look like a reference. -/
theorem Storable.conveys {entries : Entries Value} (h : Storable entries) :
    Json.Conveys entriesOf? (.object (entriesToJson entries)) entries := by
  have hwellFormed := h.wellFormed
  rw [WellFormed] at hwellFormed
  obtain ⟨pairs, hpairs, -, hiff⟩ := ofFields?_entriesToJson hwellFormed.2
  refine ⟨?_, ?_⟩
  · rw [Json.Lasting]
    exact lasting_entriesToJson h.floats
  · rw [entriesOf?, Json.object?, Option.bind_some, hpairs, hiff.2 h.faithful, Option.map_some,
      hwellFormed.1.ofList_eq]

/-- The text of a value that nests no deeper than is allowed is read as a value, if every finite
number in it is read back from its text. It is the same value exactly when none of its parts, at any
depth, is a number that is not finite or a map that is taken for a reference. -/
theorem exists_read_text_iff {v : Value} (hw : v.WellFormed)
    (hdepth : v.toJson.depth ≤ Json.maxDepth) (hfloats : v.FloatsReadBack) :
    ∃ u, (Json.parse? v.toJson.render).bind ofJson? = some u ∧
      (u = v ↔ ∀ w ∈ v.parts, ¬ w.Misread) := by
  obtain ⟨u, hu, hiff⟩ := ofJson?_toJson hw
  refine ⟨u, ?_, hiff⟩
  rw [Json.parse?_render (lasting_toJson hfloats) hdepth, Option.bind_some, hu]

/-- A map with references, floating point numbers and names that look like those of references comes
back; beside a map that is written like a reference it does not. -/
theorem exists_read_text_iff_lookalike :
    let plain := map [("home", ref ⟨.place, "inn"⟩), ("kind", text "Item"),
      ("sizes", list [int (-3), float ⟨0x3ff8000000000000⟩, float (.zero true)]),
      ("none", map [(refKey, map [("kind", text "item"), ("id", text "x")])])]
    let lookalike := map [(refKey, map [("id", text "x"), ("kind", map [("Item", null)])])]
    (Json.parse? plain.toJson.render).bind ofJson? = some plain ∧
      ∃ u, (Json.parse? (list [plain, lookalike]).toJson.render).bind ofJson? = some u ∧
        u ≠ list [plain, lookalike] := by
  intro plain lookalike
  have hfloat : (Json.Number.float ⟨0x3ff8000000000000⟩).ReadsBack := by decide +kernel
  have hzero : (Json.Number.float (.zero true)).ReadsBack := by decide +kernel
  have hplain : plain.WellFormed ∧ plain.FloatsReadBack := by
    simp [plain, WellFormed, WellFormedEntries, WellFormedItems, Entries.Distinct, Entries.keys,
      FloatsReadBack, parts, itemParts, entryParts, hfloat, hzero]
  have hlookalike : lookalike.WellFormed ∧ lookalike.FloatsReadBack := by
    simp [lookalike, WellFormed, WellFormedEntries, Entries.Distinct, Entries.keys,
      FloatsReadBack, parts, entryParts]
  have hfloats : (list [plain, lookalike]).FloatsReadBack :=
    forall_parts_list.2 ⟨by simp, by simpa using ⟨hplain.2, hlookalike.2⟩⟩
  obtain ⟨u, hu, hsame⟩ := exists_read_text_iff hplain.1 (by decide +kernel) hplain.2
  obtain ⟨w, hw, hother⟩ := exists_read_text_iff (v := list [plain, lookalike])
    ⟨hplain.1, hlookalike.1, trivial⟩ (by decide +kernel) hfloats
  have hfaithful : ∀ part ∈ plain.parts, ¬ part.Misread := by decide +kernel
  have hmisread : lookalike.Misread := by decide +kernel
  rw [hsame.2 hfaithful] at hu
  refine ⟨hu, w, hw, fun he => ?_⟩
  have hparts := (forall_parts_list.1 (hother.1 he)).2 lookalike (by simp)
  exact hparts lookalike List.mem_cons_self hmisread

end Value

end BranchingStory
