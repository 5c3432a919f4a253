import BranchingStory.Proofs.Value.RoundTrip
import BranchingStory.World.Wire

/-!
# Worlds are conveyed by their documents

An entity is written with its name, its attributes and its mark, so destroyed entities come back as
well. The entities of a kind are written by id in the order of the ids, so reading them one after
the other makes the same table again.
-/

namespace BranchingStory

open Json (Conveys)

/-- A kind is conveyed by its name. -/
theorem EntityKind.conveys_toJson (k : EntityKind) : Conveys ofJson? k.toJson k :=
  ⟨trivial, ofJson?_toJson k⟩

namespace Entity

/-- An entity with storable attributes is conveyed by its document. -/
theorem conveys_toJson {e : Entity} (h : Value.Storable e.attributes) :
    Conveys ofJson? e.toJson e := by
  have hkind := EntityKind.conveys_toJson e.name.kind
  have hparts := Json.parts?_object false e.toJson ["kind", "id", "attributes", "destroyed"] rfl rfl
    (by decide)
  refine ⟨?_, ?_⟩
  · rw [toJson, Json.lasting_object]
    simpa using ⟨hkind.lasting, trivial, h.conveys.lasting, trivial⟩
  · rw [ofJson?, hparts]
    simp only [List.map_cons, List.map_nil, Json.withDefault?, hkind.read_eq, h.conveys.read_eq]
    rfl

end Entity

namespace World

/-- The attributes of all stored entities. -/
def maps (w : World) : List (Entries Value) :=
  (EntityKind.all.flatMap w.entities).map Entity.attributes

/-- Documents of entities by id are read one by one. -/
theorem entitiesOf?_map {entries : List (String × Entity)}
    (h : ∀ e ∈ entries, Entity.ofJson? e.2.toJson = some e.2) :
    entitiesOf? (entries.map fun e => (e.1, e.2.toJson)) = some entries := by
  induction entries with
  | nil => rfl
  | cons e entries ih =>
    rw [List.forall_mem_cons] at h
    rw [List.map_cons, entitiesOf?, h.1, ih h.2]

/-- A table of entities with storable attributes is conveyed by its document. -/
theorem conveys_tableToJson {t : Table Entity} (h : ∀ e ∈ t.values, Value.Storable e.attributes) :
    Conveys tableOf? (tableToJson t) t := by
  have hentity : ∀ e ∈ t.entries, Conveys Entity.ofJson? e.2.toJson e.2 :=
    fun e he => Entity.conveys_toJson (h e.2 (List.mem_map_of_mem he))
  refine ⟨?_, ?_⟩
  · rw [tableToJson, Json.lasting_object, List.forall_mem_map]
    exact fun e he => (hentity e he).lasting
  · have hread := entitiesOf?_map fun e he => (hentity e he).read_eq
    rw [tableToJson, tableOf?, Json.object?, Option.bind_some, hread, Option.map_some,
      Table.ofList_of_sorted t.sorted]

/-- A world whose entities have storable attributes is conveyed by its document. -/
theorem conveys_toJson {w : World} (h : ∀ m ∈ w.maps, Value.Storable m) :
    Conveys ofJson? w.toJson w := by
  have htable : ∀ kind, Conveys tableOf? (tableToJson (w.table kind)) (w.table kind) := by
    refine fun kind => conveys_tableToJson fun e he => h _ (List.mem_map_of_mem ?_)
    exact List.mem_flatMap.2 ⟨kind, by cases kind <;> decide, he⟩
  have hitems : Conveys tableOf? (tableToJson w.items) w.items := htable .item
  have hcharacters : Conveys tableOf? (tableToJson w.characters) w.characters := htable .character
  have hplaces : Conveys tableOf? (tableToJson w.places) w.places := htable .place
  have hparts := Json.parts?_object false w.toJson ["items", "characters", "places"] rfl rfl
    (by decide)
  refine ⟨?_, ?_⟩
  · rw [toJson, Json.lasting_object]
    simpa using ⟨hitems.lasting, hcharacters.lasting, hplaces.lasting⟩
  · rw [ofJson?, hparts]
    simp only [List.map_cons, List.map_nil, Json.withDefault?, hitems.read_eq,
      hcharacters.read_eq, hplaces.read_eq]
    rfl

end World

end BranchingStory
