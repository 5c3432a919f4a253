import BranchingStory.Proofs.Json.Fields
import BranchingStory.Proofs.Merge.References

/-!
# Operations come back in any order of their fields

An operation is read from the fields that it is written with in any order, the tag in any place,
also if a field is left out that says no more than its absence, and whatever stands beside them
under names that no operation uses.
-/

namespace BranchingStory

namespace Operation

/-- The names that operations use for their fields. -/
def fieldNames : List String :=
  [tagKey, "kind", "id", "initial_attributes", "key", "operator", "value"]

/-- The fields that an operation is written with. -/
def fields (op : Operation) : List (String × Json) := op.toJson.object?.getD []

/-- A field that says no more than its absence: no initial attributes, or no operand. -/
def Spare (f : String × Json) : Prop :=
  f = ("initial_attributes", .object []) ∨ f = ("value", .null)

/-- The fields but the tag. -/
def untagged (fields : List (String × Json)) : List (String × Json) :=
  fields.filter fun f => f.1 != tagKey

/-- The fields are those that the operation is written with, spare ones left out or not, in any
order among others of names that no operation uses. -/
def SpelledBy (op : Operation) (fields : List (String × Json)) : Prop :=
  ∃ left other, (fields ++ left).Perm (op.fields ++ other) ∧ (∀ f ∈ left, Spare f) ∧
    ∀ f ∈ other, f.1 ∉ fieldNames

/-- The operation can be had back from the text of its document. -/
structure Storable (op : Operation) : Prop where
  /-- Within each map the names are distinct. -/
  wellFormed : op.WellFormed
  /-- No value is misread. -/
  faithful : ∀ v ∈ op.values, v.Faithful
  /-- Finite numbers are read back. -/
  floats : ∀ v ∈ op.values, v.FloatsReadBack

/-- The document of an operation is the object of its fields. -/
theorem toJson_eq_object (op : Operation) : op.toJson = .object op.fields := by cases op <;> rfl

@[simp] theorem fields_create (target : EntityId) (attributes : Entries Value) :
    (create target attributes).fields = [(tagKey, .string "Create"), ("kind", target.kind.toJson),
      ("id", .string target.id),
      ("initial_attributes", .object (Value.entriesToJson attributes))] := rfl

@[simp] theorem fields_modify (target : EntityId) (key : String) (op : Operator) (value : Value) :
    (modify target key op value).fields = [(tagKey, .string "Modify"),
      ("kind", target.kind.toJson), ("id", .string target.id), ("key", .string key),
      ("operator", op.toJson), ("value", value.toJson)] := rfl

@[simp] theorem fields_delete (target : EntityId) :
    (delete target).fields = [(tagKey, .string "Delete"), ("kind", target.kind.toJson),
      ("id", .string target.id)] := rfl

/-- The names of an operation's fields are distinct. -/
theorem nodup_names (op : Operation) : (op.fields.map Prod.fst).Nodup := by
  cases op <;> simp [tagKey]

/-- The names of an operation's fields are among those that operations use. -/
theorem name_mem_fieldNames {op : Operation} {f : String × Json} (hf : f ∈ op.fields) :
    f.1 ∈ fieldNames := by
  have hnames : ∀ name ∈ op.fields.map Prod.fst, name ∈ fieldNames := by
    cases op <;> simp [tagKey, fieldNames]
  exact hnames f.1 (List.mem_map_of_mem hf)

/-- The tag that tells an operation from those of other constructors. -/
def tag : Operation → String
  | create _ _ => "Create"
  | modify _ _ _ _ => "Modify"
  | delete _ => "Delete"

/-- The tag is among the fields of every operation. -/
theorem tag_mem_fields (op : Operation) : (tagKey, .string op.tag) ∈ op.fields := by
  cases op <;> exact List.mem_cons_self

/-- The kind of the target is among the fields of every operation. -/
theorem kind_mem_fields (op : Operation) : ("kind", op.target.kind.toJson) ∈ op.fields := by
  cases op <;> simp [target]

/-- The id of the target is among the fields of every operation. -/
theorem id_mem_fields (op : Operation) : ("id", .string op.target.id) ∈ op.fields := by
  cases op <;> simp [target]

/-- Its own fields spell an operation. -/
theorem spelledBy_fields (op : Operation) : op.SpelledBy op.fields :=
  ⟨[], [], .refl _, by simp, by simp⟩

variable {op : Operation} {fields : List (String × Json)} {name : String} {j : Json}

/-- Nothing of a storable operation's document is lost in its text. -/
theorem Storable.lasting (h : op.Storable) : op.toJson.Lasting := by
  rw [toJson_eq_object, Json.lasting_object]
  cases op with
  | create target attributes =>
    have hattributes : (Json.object (Value.entriesToJson attributes)).Lasting := by
      rw [Json.Lasting]
      exact Value.lasting_entriesToJson fun e he => h.floats e.2 (List.mem_map_of_mem he)
    simpa using ⟨trivial, trivial, trivial, hattributes⟩
  | modify target key op value =>
    have hvalue : value.toJson.Lasting := Value.lasting_toJson (h.floats value List.mem_cons_self)
    simpa using ⟨trivial, trivial, trivial, trivial, trivial, hvalue⟩
  | delete target => simpa using ⟨trivial, trivial, trivial⟩

namespace SpelledBy

/-- A field of the operation is found under its name unless it is spare and left out. -/
theorem field? (h : op.SpelledBy fields) (hf : (name, j) ∈ op.fields) :
    Json.field? fields name = some (some j) ∨
      Json.field? fields name = some none ∧ Spare (name, j) := by
  obtain ⟨left, other, hperm, hleft, hother⟩ := h
  have hne : ∀ g ∈ other, g.1 ≠ name := fun g hg he =>
    hother g hg (he ▸ name_mem_fieldNames hf)
  exact (Json.field?_of_perm hperm op.nodup_names hf hne).imp_right (And.imp_right (hleft _))

/-- A field with a name that no spare field has is found under it. -/
theorem field?_needed (h : op.SpelledBy fields) (hf : (name, j) ∈ op.fields)
    (hneeded : name ∉ ["initial_attributes", "value"]) :
    Json.field? fields name = some (some j) := by
  refine (h.field? hf).resolve_right fun hnone => hneeded ?_
  rcases hnone.2 with hspare | hspare <;> cases hspare <;> simp

/-- Such a field is also found when the tag is taken away, if it is not the tag. -/
theorem field?_untagged (h : op.SpelledBy fields) (hf : (name, j) ∈ op.fields)
    (hneeded : name ∉ ["initial_attributes", "value"]) (htag : name ≠ tagKey) :
    Json.field? (untagged fields) name = some (some j) := by
  rw [untagged, Json.field?_filter_ne htag, h.field?_needed hf hneeded]

/-- The kind and the id of the target are found without the tag. -/
theorem field?_target {e : EntityId} (h : op.SpelledBy fields) (he : op.target = e) :
    Json.field? (untagged fields) "kind" = some (some e.kind.toJson) ∧
      Json.field? (untagged fields) "id" = some (some (.string e.id)) := by
  subst he
  exact ⟨h.field?_untagged op.kind_mem_fields (by decide) (by decide),
    h.field?_untagged op.id_mem_fields (by decide) (by decide)⟩

/-- A part with a default is read from its field, or from the absence of it if that says the
same. -/
theorem exists_part {α : Type} {read : Json → Option α} {a default : α} (h : op.SpelledBy fields)
    (hf : (name, j) ∈ op.fields) (hread : read j = some a)
    (hspare : Spare (name, j) → a = default) (htag : name ≠ tagKey) :
    ∃ part, Json.field? (untagged fields) name = some part ∧
      Json.withDefault? default read part = some a := by
  rw [untagged, Json.field?_filter_ne htag]
  rcases h.field? hf with hfound | ⟨hfound, hf⟩
  · exact ⟨_, hfound, hread⟩
  · exact ⟨_, hfound, congrArg some (hspare hf).symm⟩

/-- What stands in the fields is of the operation or has a name that no operation uses. -/
theorem mem_fields_or (h : op.SpelledBy fields) {f : String × Json} (hf : f ∈ fields) :
    f ∈ op.fields ∨ f.1 ∉ fieldNames := by
  obtain ⟨left, other, hperm, -, hother⟩ := h
  exact (List.mem_append.1 (hperm.mem_iff.1 (List.mem_append_left left hf))).imp_right (hother f)

/-- Nothing of fields that spell a storable operation is lost in their text when nothing of the
others among them is. -/
theorem lasting (h : op.SpelledBy fields) (hop : op.Storable)
    (hother : ∀ f ∈ fields, f.1 ∉ fieldNames → f.2.Lasting) : (Json.object fields).Lasting := by
  have hown := hop.lasting
  rw [toJson_eq_object, Json.lasting_object] at hown
  rw [Json.lasting_object]
  intro f hf
  rcases h.mem_fields_or hf with hmem | hmem
  · exact hown f hmem
  · exact hother f hf hmem

end SpelledBy

/-- A target is read from its kind and id. -/
theorem targetOf?_toJson (target : EntityId) :
    targetOf? target.kind.toJson (.string target.id) = some target := by
  have hkind : (fixedName? target.kind.toJson).bind EntityKind.ofName? = some target.kind :=
    EntityKind.ofName?_name target.kind
  rw [targetOf?, hkind]
  rfl

/-- An operator is read from its document. -/
theorem ofSymbol?_toJson (op : Operator) :
    (fixedName? op.toJson).bind Operator.ofSymbol? = some op := by
  cases op <;> decide

/-- A creation is read from what spells it. -/
theorem createOf?_untagged {target : EntityId} {attributes : Entries Value}
    (h : (create target attributes).SpelledBy fields) (hop : (create target attributes).Storable) :
    createOf? (.object (untagged fields)) = some (create target attributes) := by
  obtain ⟨hkind, hid⟩ := h.field?_target rfl
  have hstorable : Value.Storable attributes :=
    ⟨hop.wellFormed, fun e he => hop.faithful e.2 (List.mem_map_of_mem he),
      fun e he => hop.floats e.2 (List.mem_map_of_mem he)⟩
  have hspare : Spare ("initial_attributes", .object (Value.entriesToJson attributes)) →
      attributes = [] := by
    cases attributes <;> simp [Spare, Value.entriesToJson]
  obtain ⟨part, hpart, hread⟩ :=
    h.exists_part (by simp) hstorable.conveys.read_eq hspare (by decide)
  simp only [createOf?, Json.parts?, Bool.false_and, Bool.false_eq_true, if_false,
    Json.fieldsOf?, hkind, hid, hpart, targetOf?_toJson, hread]
  rfl

/-- A modification is read from what spells it. -/
theorem modifyOf?_untagged {target : EntityId} {key : String} {op : Operator} {value : Value}
    (h : (modify target key op value).SpelledBy fields)
    (hop : (modify target key op value).Storable) :
    modifyOf? (.object (untagged fields)) = some (modify target key op value) := by
  obtain ⟨hkind, hid⟩ := h.field?_target rfl
  have hkey : Json.field? (untagged fields) "key" = some (some (.string key)) :=
    h.field?_untagged (by simp) (by decide) (by decide)
  have hoperator : Json.field? (untagged fields) "operator" = some (some op.toJson) :=
    h.field?_untagged (by simp) (by decide) (by decide)
  have hvalue : Value.ofJson? value.toJson = some value := by
    obtain ⟨u, hu, hiff⟩ := Value.ofJson?_toJson hop.wellFormed
    rw [hu, hiff.2 (hop.faithful value List.mem_cons_self)]
  have hspare : Spare ("value", value.toJson) → value = .null := by
    rintro (hspare | hspare)
    · exact absurd (Prod.mk.inj hspare).1 (by decide)
    · rw [(Prod.mk.inj hspare).2] at hvalue
      exact (Option.some.inj hvalue).symm
  obtain ⟨part, hpart, hread⟩ := h.exists_part (by simp) hvalue hspare (by decide)
  simp only [modifyOf?, Json.parts?, Bool.false_and, Bool.false_eq_true, if_false,
    Json.fieldsOf?, hkind, hid, hkey, hoperator, hpart, targetOf?_toJson, ofSymbol?_toJson, hread]
  rfl

/-- A deletion is read from what spells it. -/
theorem deleteOf?_untagged {target : EntityId} (h : (delete target).SpelledBy fields) :
    deleteOf? (.object (untagged fields)) = some (delete target) := by
  obtain ⟨hkind, hid⟩ := h.field?_target rfl
  simp only [deleteOf?, Json.parts?, Bool.false_and, Bool.false_eq_true, if_false,
    Json.fieldsOf?, hkind, hid, targetOf?_toJson]
  rfl

/-- An operation is read from whatever spells it. -/
theorem ofJson?_of_spelledBy (h : op.SpelledBy fields) (hop : op.Storable)
    (hreadable : (Json.object fields).readable = true) :
    ofJson? (.object fields) = some op := by
  have htag := h.field?_needed op.tag_mem_fields (by decide)
  have hbody : ofTagged? op.tag (.object (untagged fields)) = some op := by
    cases op with
    | create target attributes => exact createOf?_untagged h hop
    | modify target key op value => exact modifyOf?_untagged h hop
    | delete target => exact deleteOf?_untagged h
  rw [untagged] at hbody
  simpa only [ofJson?, hreadable, Bool.not_true, Bool.false_eq_true, if_false, htag] using hbody

/-- An operation is read back from its text, and from the text of any object that spells it with
further fields, none of which loses anything in its text. The text may nest as deep as is allowed,
and in the values of the operation no number may be infinite or none, nothing may be misread as a
reference, and finite numbers must be read back. -/
theorem read_text_of_spelledBy (hop : op.Storable) (hdepth : op.toJson.depth ≤ Json.maxDepth) :
    (Json.parse? op.toJson.render).bind ofJson? = some op ∧
      ∀ fields, op.SpelledBy fields → (∀ f ∈ fields, f.1 ∉ fieldNames → f.2.Lasting) →
        (Json.object fields).depth ≤ Json.maxDepth →
          (Json.parse? (Json.object fields).render).bind ofJson? = some op := by
  have hread : ∀ fields, op.SpelledBy fields → (∀ f ∈ fields, f.1 ∉ fieldNames → f.2.Lasting) →
      (Json.object fields).depth ≤ Json.maxDepth →
        (Json.parse? (Json.object fields).render).bind ofJson? = some op := by
    intro fields h hother hfields
    have hlasting := h.lasting hop hother
    rw [Json.parse?_render hlasting hfields, Option.bind_some]
    exact ofJson?_of_spelledBy h hop hlasting.readable
  refine ⟨?_, hread⟩
  rw [toJson_eq_object] at hdepth ⊢
  exact hread op.fields op.spelledBy_fields
    (fun f hf hother => absurd (name_mem_fieldNames hf) hother) hdepth

/-- A modification comes back with its tag behind the operand and among fields that hold an
operation of their own, and a creation without its empty attributes. -/
theorem read_text_of_spelledBy_scattered :
    let rage := modify ⟨.character, "hero"⟩ "moods" .add
      (.map [("value", .list [.float ⟨0x3ff8000000000000⟩, .ref ⟨.item, "sword"⟩, .null]),
        ("$ref", .text "op")])
    let spot := create ⟨.place, "inn"⟩ []
    let value := .object [("value", .array [.number (.float ⟨0x3ff8000000000000⟩),
      .object [("$ref", .object [("kind", .string "Item"), ("id", .string "sword")])], .null]),
        ("$ref", .string "op")]
    (Json.parse? (Json.object [("value", value), ("note", spot.toJson), ("operator", .string "+="),
        ("id", .string "hero"), ("op", .string "Modify"), ("note", .null),
        ("key", .string "moods"), ("kind", .string "Character")]).render).bind
          ofJson? = some rage ∧
      (Json.parse? (Json.object [("id", .string "inn"), ("OP", .string "Delete"),
        ("kind", .string "Place"), ("op", .string "Create")]).render).bind
          ofJson? = some spot := by
  intro rage spot value
  have hfloat : (Json.Number.float ⟨0x3ff8000000000000⟩).ReadsBack := by decide +kernel
  have hfaithful : ∀ v ∈ rage.values, ∀ w ∈ v.parts, ¬ w.Misread := by decide +kernel
  have hrage : rage.Storable := by
    refine ⟨?_, hfaithful, ?_⟩
    · simp [rage, WellFormed, Value.WellFormed, Value.WellFormedEntries, Value.WellFormedItems,
        Entries.Distinct, Entries.keys]
    · simp [rage, values, Value.FloatsReadBack, Value.parts, Value.itemParts, Value.entryParts,
        hfloat]
  have hspot : spot.Storable := by
    refine ⟨?_, List.forall_mem_nil _, List.forall_mem_nil _⟩
    simp [spot, WellFormed, Value.WellFormed, Value.WellFormedEntries, Entries.Distinct,
      Entries.keys]
  have hscattered : rage.SpelledBy [("value", value), ("note", spot.toJson),
      ("operator", .string "+="), ("id", .string "hero"), ("op", .string "Modify"),
      ("note", .null), ("key", .string "moods"), ("kind", .string "Character")] := by
    have horder : [5, 6, 4, 2, 0, 7, 3, 1].Perm (List.range 8) := by decide
    refine ⟨[], [("note", spot.toJson), ("note", .null)], ?_, by simp, by decide⟩
    exact horder.map fun i => (rage.fields ++ [("note", spot.toJson), ("note", .null)])[i]!
  have hshort : spot.SpelledBy [("id", .string "inn"), ("OP", .string "Delete"),
      ("kind", .string "Place"), ("op", .string "Create")] := by
    have horder : [2, 4, 1, 0, 3].Perm (List.range 5) := by decide
    refine ⟨[("initial_attributes", .object [])], [("OP", .string "Delete")], ?_, ?_, by decide⟩
    · exact horder.map fun i => (spot.fields ++ [("OP", .string "Delete")])[i]!
    · simp [Spare]
  refine ⟨(read_text_of_spelledBy hrage (by decide +kernel)).2 _ hscattered ?_ (by decide +kernel),
    (read_text_of_spelledBy hspot (by decide +kernel)).2 _ hshort ?_ (by decide +kernel)⟩
  · have hnote : spot.toJson.Lasting ∧ Json.null.Lasting := ⟨hspot.lasting, trivial⟩
    simpa [fieldNames, tagKey] using hnote
  · have hnote : (Json.string "Delete").Lasting := trivial
    simpa [fieldNames, tagKey] using hnote

end Operation

end BranchingStory
