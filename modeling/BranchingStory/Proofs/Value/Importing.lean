import BranchingStory.Value.Wire
import Mathlib.Logic.Basic

/-!
# Importing and reading a document

Importing walks a document and gives some of its objects the meaning of references. Reading tries
the types of a value one after the other and takes the first that fits, and it gives other objects
the meaning of references. Where no object has such a meaning for either of them, both make the same
value of a document, whatever numbers are in it and however it is nested.
-/

namespace BranchingStory

namespace Json

mutual

/-- The document and all documents in it, at any depth. -/
def subdocuments : Json → List Json
  | .array items => .array items :: itemSubdocuments items
  | .object fields => .object fields :: fieldSubdocuments fields
  | j => [j]

/-- The items and all documents in them. -/
def itemSubdocuments : List Json → List Json
  | [] => []
  | j :: rest => subdocuments j ++ itemSubdocuments rest

/-- What fields hold and all documents in it. -/
def fieldSubdocuments : List (String × Json) → List Json
  | [] => []
  | (_, j) :: rest => subdocuments j ++ fieldSubdocuments rest

end

/-- The documents in items are those in each in turn. -/
theorem itemSubdocuments_eq_flatMap (items : List Json) :
    itemSubdocuments items = items.flatMap subdocuments := by
  induction items with
  | nil => rfl
  | cons j items ih => rw [itemSubdocuments, ih, List.flatMap_cons]

/-- The documents in fields are those in what each in turn holds. -/
theorem fieldSubdocuments_eq_flatMap (fields : List (String × Json)) :
    fieldSubdocuments fields = fields.flatMap fun f => f.2.subdocuments := by
  induction fields with
  | nil => rfl
  | cons f fields ih => rw [fieldSubdocuments, ih, List.flatMap_cons]

/-- A field that is found is the only one of its name. -/
theorem count_keys_of_field? {fields : List (String × Json)} {name : String} {j : Json}
    (h : field? fields name = some (some j)) : (fields.map Prod.fst).count name = 1 := by
  rw [List.count, List.countP_map, List.countP_eq_length_filter]
  unfold field? at h
  split at h
  · cases h
  · next f hf => exact congrArg List.length hf
  · cases h

/-- Every name that is asked for has one of the parts. -/
theorem exists_mem_of_fieldsOf? {fields : List (String × Json)} {names : List String}
    {parts : List (Option Json)} (h : fieldsOf? fields names = some parts) :
    ∀ name ∈ names, ∃ part ∈ parts, field? fields name = some part := by
  induction names generalizing parts with
  | nil => exact List.forall_mem_nil _
  | cons first names ih =>
    rw [fieldsOf?] at h
    split at h
    · next part rest hfirst hrest =>
      cases h
      refine List.forall_mem_cons.2 ⟨⟨part, List.mem_cons_self, hfirst⟩, fun name hname => ?_⟩
      obtain ⟨other, hother, hfield⟩ := ih hrest name hname
      exact ⟨other, List.mem_cons_of_mem part hother, hfield⟩
    · cases h

/-- An object with all parts of a closed record has exactly the keys of the record. -/
theorem perm_keys_of_parts? {fields : List (String × Json)} {names : List String}
    {parts : List (Option Json)} (h : parts? true names (.object fields) = some parts)
    (hall : none ∉ parts) (hnames : names.Nodup) : (fields.map Prod.fst).Perm names := by
  rw [parts?] at h
  split at h
  · cases h
  · next hknown =>
    have hkeys : ∀ key ∈ fields.map Prod.fst, key ∈ names := by simpa using hknown
    refine List.perm_iff_count.2 fun name => ?_
    by_cases hname : name ∈ names
    · obtain ⟨part, hpart, hfield⟩ := exists_mem_of_fieldsOf? h name hname
      cases part with
      | none => exact absurd hpart hall
      | some j => rw [count_keys_of_field? hfield, hnames.count, if_pos hname]
    · rw [List.count_eq_zero_of_not_mem hname,
        List.count_eq_zero_of_not_mem fun hkey => hname (hkeys name hkey)]

end Json

/-- An object that is the name of an entity has a kind and an id and nothing else. -/
theorem EntityId.perm_keys_of_ofJson? {fields : List (String × Json)} {e : EntityId}
    (h : EntityId.ofJson? (.object fields) = some e) :
    (fields.map Prod.fst).Perm ["kind", "id"] := by
  unfold EntityId.ofJson? at h
  split at h
  · next kind id hparts => exact Json.perm_keys_of_parts? hparts (by simp) (by decide)
  · cases h

namespace Value

/-- The document means a reference to one of the two: it is an object with a reference as its single
field, or one with exactly the keys of an entity's name that is such a name. -/
def RefLike : Json → Prop
  | .object fields => refOf? fields ≠ none ∨
      (fields.map Prod.fst).Perm ["kind", "id"] ∧ EntityId.ofJson? (.object fields) ≠ none
  | _ => False

instance : DecidablePred RefLike
  | .object fields => inferInstanceAs (Decidable (refOf? fields ≠ none ∨
      (fields.map Prod.fst).Perm ["kind", "id"] ∧ EntityId.ofJson? (.object fields) ≠ none))
  | .null | .bool _ | .number _ | .string _ | .array _ | .unreadable => isFalse id

/-- No object of the document means a reference. -/
def RefFree (j : Json) : Prop := ∀ d ∈ j.subdocuments, ¬ RefLike d

instance (j : Json) : Decidable (RefFree j) :=
  inferInstanceAs (Decidable (∀ d ∈ j.subdocuments, ¬ RefLike d))

/-- The types in the order in which a reader tries them. -/
def tried : List ValueType := [.null, .bool, .int, .float, .text, .list, .ref, .map]

/-- The value of a type that a document is. -/
def readAs? : ValueType → Json → Option Value
  | .null, .null => some .null
  | .bool, .bool b => some (.bool b)
  | .int, .number (.integer i) => if i.toInt64.toInt = i then some (.int i.toInt64) else none
  | .float, .number (.integer i) => some (.float (Binary64.ofInt i))
  | .float, .number (.float x) => some (.float x)
  | .text, .string s => some (.text s)
  | .list, .array items => (ofItems? items).map .list
  | .ref, .object fields => (refOf? fields).map .ref
  | .ref, .array [j] => (EntityId.ofJson? j).map .ref
  | .map, .object fields => (ofFields? fields).map fun pairs => .map (Entries.ofList pairs)
  | _, _ => none

/-- An array means no reference in itself. -/
theorem refFree_array {items : List Json} :
    RefFree (.array items) ↔ ∀ j ∈ items, RefFree j := by
  unfold RefFree
  rw [Json.subdocuments, List.forall_mem_cons, Json.itemSubdocuments_eq_flatMap,
    List.forall_mem_flatMap]
  exact and_iff_right id

/-- An object is free of references if it means none and neither does what its fields hold. -/
theorem refFree_object {fields : List (String × Json)} :
    RefFree (.object fields) ↔ ¬ RefLike (.object fields) ∧ ∀ f ∈ fields, RefFree f.2 := by
  unfold RefFree
  rw [Json.subdocuments, List.forall_mem_cons, Json.fieldSubdocuments_eq_flatMap,
    List.forall_mem_flatMap]

/-- An object that means no reference is none to either reader. -/
theorem of_not_refLike {fields : List (String × Json)} (h : ¬ RefLike (.object fields)) :
    refOf? fields = none ∧ EntityId.ofJson? (.object fields) = none := by
  rw [RefLike, not_or, not_and, not_not] at h
  refine ⟨h.1, ?_⟩
  cases hname : EntityId.ofJson? (.object fields) with
  | none => rfl
  | some e =>
    have hnone := not_not.1 (h.2 (EntityId.perm_keys_of_ofJson? hname))
    rw [hname] at hnone
    exact hnone

mutual

/-- A readable document is read as a value, and imported as the same one if no object of it means a
reference. -/
theorem exists_ofJson? : ∀ {j : Json}, j.readable = true →
    ∃ v, ofJson? j = some v ∧ (RefFree j → ofPlain? j = some v)
  | .null, _ => ⟨.null, rfl, fun _ => rfl⟩
  | .bool b, _ => ⟨.bool b, rfl, fun _ => rfl⟩
  | .number n, _ => ⟨ofNumber n, rfl, fun _ => rfl⟩
  | .string s, _ => ⟨.text s, rfl, fun _ => rfl⟩
  | .array items, h => by
    rw [Json.readable] at h
    obtain ⟨vs, hread, himport⟩ := exists_ofItems? h
    refine ⟨.list vs, by rw [ofJson?, hread]; rfl, fun hfree => ?_⟩
    rw [ofPlain?, himport (refFree_array.1 hfree)]
    rfl
  | .object fields, h => by
    rw [Json.readable] at h
    obtain ⟨pairs, hread, himport⟩ := exists_ofFields? h
    cases href : refOf? fields with
    | some target =>
      -- The reader finds a reference, so the object means one.
      refine ⟨.ref target, by rw [ofJson?, href], fun hfree => ?_⟩
      rw [(of_not_refLike (refFree_object.1 hfree).1).1] at href
      cases href
    | none =>
      refine ⟨.map (Entries.ofList pairs), by rw [ofJson?, href, hread]; rfl, fun hfree => ?_⟩
      obtain ⟨hself, hfields⟩ := refFree_object.1 hfree
      rw [ofPlain?, (of_not_refLike hself).2, himport hfields]
      rfl
  | .unreadable, h => by cases h

/-- Readable items are read as values, and imported as the same ones. -/
theorem exists_ofItems? : ∀ {items : List Json}, Json.readableItems items = true →
    ∃ vs, ofItems? items = some vs ∧
      ((∀ j ∈ items, RefFree j) → ofPlainItems? items = some vs)
  | [], _ => ⟨[], rfl, fun _ => rfl⟩
  | j :: rest, h => by
    rw [Json.readableItems, Bool.and_eq_true] at h
    obtain ⟨v, hv, hvImport⟩ := exists_ofJson? h.1
    obtain ⟨vs, hvs, hvsImport⟩ := exists_ofItems? h.2
    refine ⟨v :: vs, by rw [ofItems?, hv, hvs], fun hfree => ?_⟩
    rw [List.forall_mem_cons] at hfree
    rw [ofPlainItems?, hvImport hfree.1, hvsImport hfree.2]

/-- Readable fields are read as values by name, and imported as the same ones. -/
theorem exists_ofFields? : ∀ {fields : List (String × Json)}, Json.readableFields fields = true →
    ∃ pairs, ofFields? fields = some pairs ∧
      ((∀ f ∈ fields, RefFree f.2) → ofPlainFields? fields = some pairs)
  | [], _ => ⟨[], rfl, fun _ => rfl⟩
  | (key, j) :: rest, h => by
    rw [Json.readableFields, Bool.and_eq_true] at h
    obtain ⟨v, hv, hvImport⟩ := exists_ofJson? h.1
    obtain ⟨pairs, hpairs, hpairsImport⟩ := exists_ofFields? h.2
    refine ⟨(key, v) :: pairs, by rw [ofFields?, hv, hpairs], fun hfree => ?_⟩
    rw [List.forall_mem_cons] at hfree
    rw [ofPlainFields?, hvImport hfree.1, hpairsImport hfree.2]

end

/-- Reading a readable document takes the first type that fits. -/
theorem ofJson?_eq_findSome? {j : Json} (h : j.readable = true) :
    ofJson? j = tried.findSome? fun type => readAs? type j := by
  cases j with
  | array items =>
    -- A list always fits, so that no array is tried for a reference.
    rw [Json.readable] at h
    obtain ⟨vs, hvs, -⟩ := exists_ofItems? h
    rw [ofJson?, hvs]
    simp [tried, readAs?, hvs]
  | object fields =>
    rw [ofJson?]
    cases href : refOf? fields with
    | some target => simp [tried, readAs?, href]
    | none => cases hmap : ofFields? fields <;> simp [tried, readAs?, href, hmap]
  | number n =>
    cases n with
    | integer i =>
      have hnull : readAs? .null (.number (.integer i)) = none := rfl
      have hbool : readAs? .bool (.number (.integer i)) = none := rfl
      have hfloat : readAs? .float (.number (.integer i)) = some (.float (Binary64.ofInt i)) := rfl
      have hint : readAs? .int (.number (.integer i)) =
        if i.toInt64.toInt = i then some (.int i.toInt64) else none := rfl
      rw [ofJson?, ofNumber.eq_def]
      simp only [tried, List.findSome?_cons, hnull, hbool, hint, hfloat]
      by_cases hi : i.toInt64.toInt = i
      · simp only [if_pos hi]
      · simp only [if_neg hi]
    | float x => rfl
  | unreadable => cases h
  | _ => rfl

/-- A readable document of which no object means a reference is imported as the value that is read
of it, and this is what the first type that fits makes of it. -/
theorem imported_as_read {j : Json} (h : j.readable = true) (hfree : RefFree j) :
    ∃ v, ofPlain? j = some v ∧ ofJson? j = some v ∧
      (tried.findSome? fun type => readAs? type j) = some v := by
  obtain ⟨v, hread, himport⟩ := exists_ofJson? h
  refine ⟨v, himport hfree, hread, ?_⟩
  rw [← ofJson?_eq_findSome? h, hread]

/-- Objects that are almost references: with a key too many, with a kind that is none, with an id
that is no text, and marked as a reference over one of these or beside another key; and numbers at
both ends of 64 bits and beyond. -/
theorem imported_as_read_lookalikes :
    let nameOf (kind id : Json) : List (String × Json) := [("kind", kind), ("id", id)]
    let dragon : Json := .object (nameOf (.string "Dragon") (.string "x"))
    let item : List (String × Json) := nameOf (.string "Item") (.string "x")
    let most : Int := Int64.maxValue.toInt
    let numbers : List Json := [.number (.integer most), .number (.integer (most + 1)),
      .number (.integer Int64.minValue.toInt), .number (.float (.zero true))]
    let j : Json := .array [.object (("size", .null) :: item), .object [(refKey, dragon)],
      .object (nameOf (.string "Item") (.number (.integer 7))),
      .object [(refKey, .object [("id", .string "x")]), ("kind", .bool true)], .array numbers]
    let v := list [map [("size", null), ("kind", text "Item"), ("id", text "x")],
      map [(refKey, map [("kind", text "Dragon"), ("id", text "x")])],
      map [("kind", text "Item"), ("id", int 7)],
      map [(refKey, map [("id", text "x")]), ("kind", bool true)],
      list [int Int64.maxValue, float (Binary64.ofInt (most + 1)), int Int64.minValue,
        float (.zero true)]]
    j.readable = true ∧ RefFree j ∧ ofPlain? j = some v ∧ ofJson? j = some v ∧
      (tried.findSome? fun type => readAs? type j) = some v := by
  intro nameOf dragon item most numbers j v
  have hreadable : j.readable = true := by decide +kernel
  have hfree : RefFree j := by decide +kernel
  have hread : ofJson? j = some v := by rfl
  obtain ⟨u, himported, hu, hfirst⟩ := imported_as_read hreadable hfree
  obtain rfl : u = v := Option.some.inj (hu.symm.trans hread)
  exact ⟨hreadable, hfree, himported, hread, hfirst⟩

end Value

end BranchingStory
