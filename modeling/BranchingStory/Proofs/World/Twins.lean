import BranchingStory.Proofs.Operator.Twins
import BranchingStory.Proofs.World.RoundTrip
import BranchingStory.Proofs.World.Slot

/-!
# Equal worlds cannot be told apart

Two worlds without floating point numbers that are equal store twins under every name: entities with
one name, one mark and twin attributes. An operation on a name where twins are stored succeeds on
both or fails on both for the same reason, and leaves twins. So a batch has the same outcomes in
equal worlds and leads to equal worlds.
-/

namespace BranchingStory

/-- The values of the operation are exact. -/
def Operation.Exact : Operation → Prop
  | create _ attributes => (Value.map attributes).Exact
  | modify _ _ _ value => value.Exact
  | delete _ => True

namespace Entity

/-- The entities have one name, one mark and twin attributes. -/
structure Twins (e f : Entity) : Prop where
  name : e.name = f.name
  destroyed : e.destroyed = f.destroyed
  attributes : Value.Twins (.map e.attributes) (.map f.attributes)

variable {e f : Entity} (key : String) {v : Value}

/-- Entities are twins when their attributes are exact and they are the same. -/
theorem twins_iff : Twins e f ↔
    (Value.map e.attributes).Exact ∧ (Value.map f.attributes).Exact ∧ e.same f = true := by
  have hsame : e.same f = true ↔ e.name = f.name ∧ e.destroyed = f.destroyed ∧
      (Value.map e.attributes).same (.map f.attributes) = true := by
    simp [same, Value.same, Value.sameMap, and_assoc]
  rw [hsame]
  constructor
  · exact fun h =>
      ⟨h.attributes.left, h.attributes.right, h.name, h.destroyed, h.attributes.same⟩
  · rintro ⟨he, hf, hname, hdestroyed, hattributes⟩
    exact ⟨hname, hdestroyed, he, hf, hattributes⟩

/-- A new entity is its own twin. -/
theorem twins_new (name : EntityId) : Twins (Entity.new name) (Entity.new name) :=
  ⟨rfl, rfl, Value.Exact.twins (Value.exact_map.2 ⟨List.nodup_nil, List.forall_mem_nil _⟩)⟩

/-- Twins have twins under each key. -/
theorem Twins.attribute? (h : Twins e f) :
    Option.Rel Value.Twins (e.attribute? key) (f.attribute? key) :=
  (Value.twins_map.1 h.attributes).2.2 key

/-- Twins that are given twins under one key are twins. -/
theorem Twins.put {w : Value} (h : Twins e f) (hv : Value.Twins v w) :
    Twins { e with attributes := Entries.put key v e.attributes }
      { f with attributes := Entries.put key w f.attributes } :=
  ⟨h.name, h.destroyed, h.attributes.put hv key⟩

/-- Giving an attribute of twins an exact value has results that go together. -/
theorem Twins.setAttribute (h : Twins e f) (hv : v.Exact) :
    SameResult Twins (e.setAttribute key v) (f.setAttribute key v) := by
  unfold Entity.setAttribute
  split
  · exact .error _
  · exact .error _
  · split
    · exact .ok ⟨h.name, rfl, h.attributes⟩
    · exact .error _
  · exact .ok (h.put key hv.twins)

/-- Giving several attributes of twins exact values has results that go together. -/
theorem Twins.setAttributes {attributes : Entries Value} (h : Twins e f)
    (hattributes : ∀ a ∈ attributes, a.2.Exact) :
    SameResult Twins (e.setAttributes attributes) (f.setAttributes attributes) := by
  induction attributes generalizing e f with
  | nil => exact .ok h
  | cons entry attributes ih =>
    rw [List.forall_mem_cons] at hattributes
    unfold Entity.setAttributes
    rcases (h.setAttribute entry.1 hattributes.1).cases with
      ⟨error, he, hf⟩ | ⟨next, other, he, hf, hnext⟩ <;> simp only [he, hf]
    · exact .error error
    · exact ih hnext hattributes.2

/-- Changing an attribute of twins by an exact operand has results that go together. -/
theorem Twins.modifyAttribute (h : Twins e f) (op : Operator) (hv : v.Exact) :
    SameResult Twins (e.modifyAttribute key op v) (f.modifyAttribute key op v) := by
  unfold Entity.modifyAttribute
  split
  · split
    · exact h.setAttribute key hv
    · exact .error _
  · rcases (Operator.sameResult_apply key op (h.attribute? key) hv).cases with
      ⟨error, he, hf⟩ | ⟨next, other, he, hf, hnext⟩ <;> simp only [he, hf]
    · exact .error error
    · cases hnext with
      | none => exact .ok h
      | some hnext => exact .ok (h.put key hnext)

end Entity

namespace Slot

variable {s t : Slot} {op : Operation}

/-- Slots store twins when what they store is exact and the same. -/
theorem rel_twins_iff : Option.Rel Entity.Twins s t ↔
    (∀ e, s = some e → (Value.map e.attributes).Exact) ∧
      (∀ f, t = some f → (Value.map f.attributes).Exact) ∧
      Option.Rel (fun e f => e.same f = true) s t := by
  cases s <;> cases t <;> simp [Entity.twins_iff]

/-- Twins are live or destroyed together. -/
theorem rel_live? (h : Option.Rel Entity.Twins s t) :
    Option.Rel Entity.Twins (live? s) (live? t) := by
  cases h with
  | none => exact .none
  | some h =>
    rw [live?_some, live?_some, h.destroyed]
    split
    · exact .none
    · exact .some h

/-- An operation with exact values on slots that store twins has results that go together. -/
theorem sameResult_step (h : Option.Rel Entity.Twins s t) (hop : op.Exact) :
    SameResult (Option.Rel Entity.Twins) (step s op) (step t op) := by
  have hlive := rel_live? h
  cases op with
  | create target attributes =>
    simp only [step, isSome_eq_of_rel hlive]
    split
    · exact .error _
    · rcases ((Entity.twins_new target).setAttributes (Value.exact_map.1 hop).2).cases with
        ⟨error, he, -⟩ | ⟨next, other, he, hf, hnext⟩
      · rw [he]
        exact .error _
      · obtain rfl := Except.ok.inj (he.symm.trans hf)
        rw [he]
        exact .ok (.some hnext)
  | modify target key o value =>
    unfold step
    generalize live? s = live, live? t = other at hlive ⊢
    cases hlive with
    | none => exact .error _
    | some hlive =>
      dsimp only
      split
      · exact .error _
      · split
        · exact .error _
        · rcases (hlive.modifyAttribute key o hop).cases with
            ⟨error, he, hf⟩ | ⟨next, other, he, hf, hnext⟩ <;> simp only [he, hf]
          · exact .error _
          · exact .ok (.some hnext)
  | delete target =>
    cases h with
    | none => exact .ok .none
    | some h => exact .ok (.some ⟨h.name, rfl, h.attributes⟩)

/-- An operation with exact values has the same outcome in slots that store twins, and they store
twins after it. -/
theorem rel_applyOne (h : Option.Rel Entity.Twins s t) (hop : op.Exact) :
    (applyOne s op).2 = (applyOne t op).2 ∧
      Option.Rel Entity.Twins (applyOne s op).1 (applyOne t op).1 := by
  unfold applyOne
  rcases (sameResult_step h hop).cases with ⟨error, hs, ht⟩ | ⟨next, other, hs, ht, hnext⟩ <;>
    simp only [hs, ht]
  · exact ⟨trivial, h⟩
  · exact ⟨trivial, hnext⟩

end Slot

namespace World

/-- Tables hold the same when they do so under each name. -/
theorem sameTable_iff (t u : Table Entity) : sameTable t.entries u.entries = true ↔
    ∀ key, Option.Rel (fun e f => e.same f = true) (t.get? key) (u.get? key) := by
  have hlist : ∀ l m : List (String × Entity), sameTable l m = true ↔
      List.Forall₂ (fun a b => a.1 = b.1 ∧ a.2.same b.2 = true) l m := by
    intro l
    induction l with
    | nil => intro m; cases m <;> simp [sameTable]
    | cons a l ih => intro m; cases m <;> simp [sameTable, ih, and_assoc]
  rw [hlist]
  exact Table.forall₂_entries_iff (R := fun e f : Entity => e.same f = true)

/-- Worlds are equal when they store the same under each name. -/
theorem same_iff (v w : World) : (v == w) = true ↔
    ∀ target, Option.Rel (fun e f => e.same f = true) (v.stored? target) (w.stored? target) := by
  have hall : (v == w) = true ↔
      ∀ kind, sameTable (v.table kind).entries (w.table kind).entries = true := by
    change World.same v w = true ↔ _
    rw [World.same, List.all_eq_true]
    exact ⟨fun h kind => h kind (by cases kind <;> decide), fun h kind _ => h kind⟩
  simp only [hall, sameTable_iff]
  exact ⟨fun h target => h target.kind target.id, fun h kind id => h ⟨kind, id⟩⟩

/-- The worlds store twins under each name. -/
def Twins (v w : World) : Prop :=
  ∀ target, Option.Rel Entity.Twins (v.stored? target) (w.stored? target)

/-- The attributes of every stored entity are exact. -/
def Exact (w : World) : Prop := ∀ m ∈ w.maps, (Value.map m).Exact

/-- The attributes in a world are those of the entities that are stored. -/
theorem exact_iff {w : World} :
    w.Exact ↔ ∀ target e, w.stored? target = some e → (Value.map e.attributes).Exact := by
  unfold Exact maps
  rw [List.forall_mem_map]
  simp only [entities, Table.values, List.mem_flatMap, List.mem_map, Prod.exists,
    exists_eq_right, stored?, Table.mem_entries_iff]
  constructor
  · intro h target e he
    exact h e ⟨target.kind, by cases target.kind <;> decide, target.id, he⟩
  · rintro h e ⟨kind, -, id, he⟩
    exact h ⟨kind, id⟩ e he

/-- Worlds are twins when they are exact and equal. -/
theorem twins_iff {v w : World} : v.Twins w ↔ v.Exact ∧ w.Exact ∧ (v == w) = true := by
  simp only [Twins, Slot.rel_twins_iff, exact_iff, same_iff, forall_and]

variable {v w : World}

/-- An operation with exact values has the same outcome in worlds that are twins, and they are twins
after it. -/
theorem Twins.applyOne (h : v.Twins w) {op : Operation} (hop : op.Exact) :
    (v.applyOne op).2 = (w.applyOne op).2 ∧ (v.applyOne op).1.Twins (w.applyOne op).1 := by
  refine ⟨?_, fun target => ?_⟩
  · rw [outcome_applyOne, outcome_applyOne]
    exact (Slot.rel_applyOne (h op.target) hop).1
  · rw [stored?_applyOne, stored?_applyOne]
    split
    · exact (Slot.rel_applyOne (h target) hop).2
    · exact h target

/-- A batch with exact values has the same outcomes in worlds that are twins, and they are twins
after it. -/
theorem Twins.apply (h : v.Twins w) {ops : List Operation} (hops : ∀ op ∈ ops, op.Exact) :
    (v.apply ops).2 = (w.apply ops).2 ∧ (v.apply ops).1.Twins (w.apply ops).1 := by
  induction ops generalizing v w with
  | nil => exact ⟨rfl, h⟩
  | cons op ops ih =>
    rw [List.forall_mem_cons] at hops
    obtain ⟨houtcome, hnext⟩ := h.applyOne hops.1
    obtain ⟨houtcomes, hlast⟩ := ih hnext hops.2
    rw [apply_cons, apply_cons, houtcome, houtcomes]
    exact ⟨rfl, hlast⟩

/-- On values without floating point numbers, being the same is an equivalence. In two worlds
without such numbers that are equal, a batch without them has the same outcomes, errors included,
and leads to equal worlds. -/
theorem outcomes_apply_of_equal :
    (Equivalence fun a b : { v : Value // v.Exact } => (a.1 == b.1) = true) ∧
      ∀ v w : World, v.Exact → w.Exact → (v == w) = true →
        ∀ ops : List Operation, (∀ op ∈ ops, op.Exact) →
          (v.apply ops).2 = (w.apply ops).2 ∧ ((v.apply ops).1 == (w.apply ops).1) = true := by
  refine ⟨⟨fun a => a.2.twins.same, fun {a b} h => ?_, fun h k => Value.same_trans h k⟩,
    fun v w hv hw h ops hops => ?_⟩
  · exact (Value.Twins.mk a.2 b.2 h).symm.same
  · obtain ⟨houtcomes, htwins⟩ := (twins_iff.2 ⟨hv, hw, h⟩).apply hops
    exact ⟨houtcomes, (twins_iff.1 htwins).2.2⟩

/-- The hero's bag and the map of its moods have their entries in different orders in two worlds. A
bag that is there is not added again in either, a key that is no text is refused in both, and so is
the sum of a map and a text. -/
theorem outcomes_apply_of_equal_reordered :
    let hero : EntityId := ⟨.character, "hero"⟩
    let bag : Entries Value := [("coins", .int 3), ("rope", .list [.null])]
    let moods : Entries Value := [("calm", .bool true), ("bag", .map bag)]
    let other : Entries Value := [("bag", .map bag.reverse), ("calm", .bool true)]
    let v := (World.empty.apply
      [.create hero [("bags", .list [.map bag]), ("moods", .map moods)]]).1
    let w := (World.empty.apply
      [.create hero [("moods", .map other), ("bags", .list [.map bag.reverse])]]).1
    let ops : List Operation := [.modify hero "bags" .add (.list [.map bag, .text "hat"]),
      .modify hero "moods" .subtract (.list [.text "calm", .int 7]),
      .modify hero "moods" .add (.text "calm"), .modify hero "moods" .subtract (.text "calm")]
    v.Exact ∧ w.Exact ∧ (v == w) = true ∧ (∀ op ∈ ops, op.Exact) ∧
      (w.apply ops).2.map Outcome.error = [none,
        some (.refused hero (.typeMismatch "moods" .textKey .int)),
        some (.refused hero (.typeMismatch "moods" .map .text)), none] ∧
      (v.apply ops).2 = (w.apply ops).2 ∧ ((v.apply ops).1 == (w.apply ops).1) = true := by
  intro hero bag moods other v w ops
  have hv : v.maps = [[("bags", .list [.map bag]), ("moods", .map moods)]] := rfl
  have hw : w.maps = [[("moods", .map other), ("bags", .list [.map bag.reverse])]] := rfl
  have hexact : v.Exact ∧ w.Exact ∧ ∀ op ∈ ops, op.Exact := by
    simp (disch := decide) [Exact, hv, hw, ops, Operation.Exact, bag, moods, other, -Prod.forall,
      Value.exact_map, Value.exact_list, Value.exact_iff_of_isScalar, Value.type, Entries.Distinct,
      Entries.keys]
  obtain ⟨hvExact, hwExact, hops⟩ := hexact
  have hequal : (v == w) = true := by decide +kernel
  obtain ⟨houtcomes, hlast⟩ := outcomes_apply_of_equal.2 v w hvExact hwExact hequal ops hops
  exact ⟨hvExact, hwExact, hequal, hops, by decide +kernel, houtcomes, hlast⟩

end World

end BranchingStory
