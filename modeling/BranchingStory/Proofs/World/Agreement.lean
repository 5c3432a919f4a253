import BranchingStory.Proofs.World.Replay

/-!
# Agreement but for some attributes

A modification reads the mark of destruction and the one attribute that it addresses. So on two
entities that agree but for the attributes of certain keys, operations that address none of these
keys have the same outcomes, and the entities still agree afterwards. Modifications of certain keys
other than the mark of destruction leave an entity that agrees with the one before but for them.
-/

namespace BranchingStory

/-- The keys of the mark of destruction are those that name it in some letter case. -/
theorem CoreAttribute.ofKey?_eq_destroyed_iff {key : String} :
    CoreAttribute.ofKey? key = some .destroyed ↔
      Text.sameLetters CoreAttribute.destroyed.key key = true := by
  constructor
  · intro hk
    have hs := List.find?_some hk
    exact hs
  · intro hs
    have hfold : Text.foldCase CoreAttribute.destroyed.key = Text.foldCase key := beq_iff_eq.1 hs
    have hid : Text.sameLetters CoreAttribute.id.key key = false := by
      rw [Text.sameLetters, ← hfold]
      decide
    have htype : Text.sameLetters CoreAttribute.type.key key = false := by
      rw [Text.sameLetters, ← hfold]
      decide
    simp [ofKey?, all, hid, htype, hs]

/-- A key that does not name the mark of destruction in any letter case is none of its keys. -/
theorem CoreAttribute.ofKey?_ne_destroyed {key : String}
    (h : Text.sameLetters CoreAttribute.destroyed.key key = false) :
    CoreAttribute.ofKey? key ≠ some .destroyed := by
  rw [Ne, CoreAttribute.ofKey?_eq_destroyed_iff, h]
  exact Bool.false_ne_true

namespace Entity

/-- The two entities agree but for the attributes of the given keys. -/
structure Agree (keys : List String) (e f : Entity) : Prop where
  /-- They have the same name. -/
  name : e.name = f.name
  /-- Both or neither are destroyed. -/
  destroyed : e.destroyed = f.destroyed
  /-- Every other attribute has the same value. -/
  value : ∀ key, key ∉ keys → e.attribute? key = f.attribute? key

/-- Every entity agrees with itself. -/
theorem Agree.refl (keys : List String) (e : Entity) : Agree keys e e :=
  ⟨rfl, rfl, fun _ _ => rfl⟩

/-- Agreement does not depend on the order. -/
theorem Agree.symm {keys : List String} {e f : Entity} (h : Agree keys e f) : Agree keys f e :=
  ⟨h.name.symm, h.destroyed.symm, fun key hk => (h.value key hk).symm⟩

/-- Entities that agree with a third one agree. -/
theorem Agree.trans {keys : List String} {e f g : Entity} (h : Agree keys e f)
    (k : Agree keys f g) : Agree keys e g :=
  ⟨h.name.trans k.name, h.destroyed.trans k.destroyed,
    fun key hk => (h.value key hk).trans (k.value key hk)⟩

/-- Entities that agree but for some keys, and but for others, agree in everything. -/
theorem Agree.inter {keys others : List String} {e f : Entity} (h : Agree keys e f)
    (k : Agree others e f) (hkeys : ∀ key ∈ keys, key ∉ others) : Agree [] e f := by
  refine ⟨h.name, h.destroyed, fun key _ => ?_⟩
  by_cases hk : key ∈ keys
  · exact k.value key (hkeys key hk)
  · exact h.value key hk

/-- Entities that agree do so with the same value for one more attribute. -/
theorem Agree.put {keys : List String} {e f : Entity} (h : Agree keys e f) (key : String)
    (v : Value) :
    Agree keys { e with attributes := Entries.put key v e.attributes }
      { f with attributes := Entries.put key v f.attributes } := by
  refine ⟨h.name, h.destroyed, fun other hother => ?_⟩
  by_cases hk : key = other
  · subst hk
    simp only [attribute?, Entries.value?_put_self]
  · have hvalue := h.value other hother
    simp only [attribute?, Entries.value?_put_ne hk] at hvalue ⊢
    exact hvalue

/-- An entity agrees with itself after one of the attributes in question got a value. -/
theorem agree_put {keys : List String} (e : Entity) {key : String} (hk : key ∈ keys) (v : Value) :
    Agree keys e { e with attributes := Entries.put key v e.attributes } := by
  refine ⟨rfl, rfl, fun other hother => ?_⟩
  have hne : key ≠ other := fun he => hother (he ▸ hk)
  simp only [attribute?, Entries.value?_put_ne hne]

/-- Two results agree: both are the same error, or entities that agree. -/
def AgreeResult (keys : List String) (r q : Except AttributeError Entity) : Prop :=
  (∃ error, r = .error error ∧ q = .error error) ∨
    ∃ e f, r = .ok e ∧ q = .ok f ∧ Agree keys e f

/-- Giving an attribute a value has results that agree. -/
theorem Agree.setAttribute {keys : List String} {e f : Entity} (h : Agree keys e f) (key : String)
    (v : Value) : AgreeResult keys (e.setAttribute key v) (f.setAttribute key v) := by
  unfold Entity.setAttribute
  split
  · exact .inl ⟨_, rfl, rfl⟩
  · exact .inl ⟨_, rfl, rfl⟩
  · split
    · exact .inr ⟨_, _, rfl, rfl, h.name, rfl, h.value⟩
    · exact .inl ⟨_, rfl, rfl⟩
  · exact .inr ⟨_, _, rfl, rfl, h.put key v⟩

/-- Changing an attribute for which the entities agree has results that agree. -/
theorem Agree.modifyAttribute {keys : List String} {e f : Entity} (h : Agree keys e f)
    {key : String} (hk : key ∉ keys) (op : Operator) (operand : Value) :
    AgreeResult keys (e.modifyAttribute key op operand) (f.modifyAttribute key op operand) := by
  unfold Entity.modifyAttribute
  split
  · split
    · exact h.setAttribute key operand
    · exact .inl ⟨_, rfl, rfl⟩
  · rw [h.value key hk]
    split
    · exact .inr ⟨_, _, rfl, rfl, h.put key _⟩
    · exact .inr ⟨_, _, rfl, rfl, h⟩
    · exact .inl ⟨_, rfl, rfl⟩

/-- Changing an attribute other than the mark of destruction changes nothing else. -/
theorem agree_modifyAttribute {keys : List String} {e next : Entity} {key : String}
    (hk : key ∈ keys) (hcore : CoreAttribute.ofKey? key ≠ some .destroyed) {op : Operator}
    {operand : Value} (h : e.modifyAttribute key op operand = .ok next) : Agree keys e next := by
  unfold Entity.modifyAttribute at h
  split at h
  · next hsome =>
    split at h
    · unfold Entity.setAttribute at h
      split at h
      · cases h
      · cases h
      · next hd => exact absurd hd hcore
      · cases h
        exact e.agree_put hk operand
    · cases h
  · split at h
    · cases h
      exact e.agree_put hk _
    · cases h
      exact Agree.refl keys e
    · cases h

end Entity

namespace Slot

/-- The two slots agree but for the attributes of the given keys. -/
abbrev Agree (keys : List String) : Slot → Slot → Prop := Option.Rel (Entity.Agree keys)

/-- Every slot agrees with itself. -/
theorem Agree.refl (keys : List String) : ∀ slot : Slot, Agree keys slot slot
  | none => .none
  | some e => .some (Entity.Agree.refl keys e)

/-- Agreement does not depend on the order. -/
theorem Agree.symm {keys : List String} {s t : Slot} (h : Agree keys s t) : Agree keys t s := by
  cases h with
  | none => exact .none
  | some h => exact .some h.symm

/-- Slots that agree with a third one agree. -/
theorem Agree.trans {keys : List String} {s t u : Slot} (h : Agree keys s t) (k : Agree keys t u) :
    Agree keys s u := by
  cases h with
  | none => exact k
  | some h =>
    cases k with
    | some k => exact .some (h.trans k)

/-- Slots that agree but for some keys, and but for others, agree in everything. -/
theorem Agree.inter {keys others : List String} {s t : Slot} (h : Agree keys s t)
    (k : Agree others s t) (hkeys : ∀ key ∈ keys, key ∉ others) : Agree [] s t := by
  cases h with
  | none => exact .none
  | some h =>
    cases k with
    | some k => exact .some (h.inter k hkeys)

/-- In slots that agree an operation that addresses none of the keys has the same outcome, and the
slots still agree after it. -/
theorem Agree.applyOne {keys : List String} {s t : Slot} (h : Agree keys s t) {op : Operation}
    (hop : ∀ key, op.modifyKey? = some key → key ∉ keys) :
    (Slot.applyOne s op).2 = (Slot.applyOne t op).2 ∧
      Agree keys (Slot.applyOne s op).1 (Slot.applyOne t op).1 := by
  cases h with
  | none => exact ⟨rfl, Agree.refl keys _⟩
  | @some e f h =>
    cases op with
    | create target attributes =>
      simp only [Slot.applyOne, step, live?_some, h.destroyed]
      cases f.destroyed with
      | true =>
        cases (Entity.new target).setAttributes attributes with
        | ok next => exact ⟨rfl, .some (Entity.Agree.refl keys next)⟩
        | error error => exact ⟨rfl, .some h⟩
      | false => exact ⟨rfl, .some h⟩
    | modify target key op value =>
      simp only [Slot.applyOne, step, live?_some, h.destroyed]
      cases f.destroyed with
      | true => exact ⟨rfl, .some h⟩
      | false =>
        cases Text.isBlank key with
        | true => exact ⟨rfl, .some h⟩
        | false =>
          cases value.isNull with
          | true => exact ⟨rfl, .some h⟩
          | false =>
            rcases h.modifyAttribute (hop key rfl) op value with
              ⟨error, he, hf⟩ | ⟨e', f', he, hf, hnext⟩
            · simp only [Bool.false_eq_true, if_false, he, hf]
              exact ⟨trivial, .some h⟩
            · simp only [Bool.false_eq_true, if_false, he, hf]
              exact ⟨trivial, .some hnext⟩
    | delete target => exact ⟨rfl, .some ⟨h.name, rfl, h.value⟩⟩

/-- In slots that agree a batch that addresses none of the keys has the same outcomes, and the slots
still agree after it. -/
theorem Agree.apply {keys : List String} {s t : Slot} (h : Agree keys s t) {ops : List Operation}
    (hops : ∀ op ∈ ops, ∀ key, op.modifyKey? = some key → key ∉ keys) :
    (Slot.apply s ops).2 = (Slot.apply t ops).2 ∧
      Agree keys (Slot.apply s ops).1 (Slot.apply t ops).1 := by
  induction ops generalizing s t with
  | nil => exact ⟨rfl, h⟩
  | cons op ops ih =>
    rw [List.forall_mem_cons] at hops
    obtain ⟨houtcome, hnext⟩ := h.applyOne hops.1
    obtain ⟨houtcomes, hlast⟩ := ih hnext hops.2
    rw [apply_cons, apply_cons, houtcome, houtcomes]
    exact ⟨rfl, hlast⟩

/-- A modification of one of the keys, other than the mark of destruction, leaves a slot that agrees
with the one before. -/
theorem agree_applyOne {keys : List String} (slot : Slot) {op : Operation} {key : String}
    (hop : op.modifyKey? = some key) (hk : key ∈ keys)
    (hcore : CoreAttribute.ofKey? key ≠ some .destroyed) :
    Agree keys slot (Slot.applyOne slot op).1 := by
  unfold Slot.applyOne
  split
  · next next hstep =>
    rcases step_cases hstep with ⟨_, _, _, rfl, _⟩ |
      ⟨_, _, _, _, e, changed, rfl, rfl, _, _, _, hchanged, rfl⟩ | ⟨_, rfl, _⟩
    · cases hop
    · cases hop
      exact .some (Entity.agree_modifyAttribute hk hcore hchanged)
    · cases hop
  · exact Agree.refl keys slot

/-- A batch of modifications of the keys, none of them the mark of destruction, leaves a slot that
agrees with the one before. -/
theorem agree_apply {keys : List String} (slot : Slot) {ops : List Operation}
    (hops : ∀ op ∈ ops, ∃ key, op.modifyKey? = some key ∧ key ∈ keys ∧
      CoreAttribute.ofKey? key ≠ some .destroyed) : Agree keys slot (Slot.apply slot ops).1 := by
  induction ops generalizing slot with
  | nil => exact Agree.refl keys slot
  | cons op ops ih =>
    rw [List.forall_mem_cons] at hops
    obtain ⟨⟨key, hop, hk, hcore⟩, hrest⟩ := hops
    exact (agree_applyOne slot hop hk hcore).trans (ih _ hrest)

/-- Modifications, none of them of the mark of destruction, change nothing for operations that address
other keys: after them these have the outcomes that they have before them, and leave slots that
agree but for the modified keys. -/
theorem agree_after_modifications (slot : Slot) {first second : List Operation}
    (hmodify : ∀ op ∈ first, ∃ key, op.modifyKey? = some key ∧
      CoreAttribute.ofKey? key ≠ some .destroyed)
    (hkeys : ∀ op ∈ first, ∀ other ∈ second, ∀ key, op.modifyKey? = some key →
      other.modifyKey? ≠ some key) :
    (Slot.apply slot second).2 = (Slot.apply (Slot.apply slot first).1 second).2 ∧
      Agree (first.filterMap Operation.modifyKey?) (Slot.apply slot second).1
        (Slot.apply (Slot.apply slot first).1 second).1 := by
  have hagree : Agree (first.filterMap Operation.modifyKey?) slot (Slot.apply slot first).1 := by
    refine agree_apply slot fun op hop => ?_
    obtain ⟨key, hk, hcore⟩ := hmodify op hop
    exact ⟨key, hk, List.mem_filterMap.2 ⟨op, hop, hk⟩, hcore⟩
  refine hagree.apply fun other hother key hk hmem => ?_
  obtain ⟨op, hop, hopk⟩ := List.mem_filterMap.1 hmem
  exact hkeys op hop other hother key hopk hk

/-- Modifications, none of them of the mark of destruction, do not stand in the way of operations
that address other keys: what succeeds in full before them does so after them. -/
theorem Leads.after_modifications {slot middle last : Slot} {first second : List Operation}
    (hfirst : Leads slot first middle) (hsecond : Leads slot second last)
    (hmodify : ∀ op ∈ first, ∃ key, op.modifyKey? = some key ∧
      CoreAttribute.ofKey? key ≠ some .destroyed)
    (hkeys : ∀ op ∈ first, ∀ other ∈ second, ∀ key, op.modifyKey? = some key →
      other.modifyKey? ≠ some key) :
    ∃ final, Leads middle second final := by
  have houtcomes := (agree_after_modifications slot hmodify hkeys).1
  rw [hfirst, hsecond] at houtcomes
  exact ⟨_, Prod.ext rfl houtcomes.symm⟩

end Slot

end BranchingStory
