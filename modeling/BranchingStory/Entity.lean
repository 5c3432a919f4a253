import BranchingStory.Operator

/-!
# Entities

An entity carries attributes in the order of their arrival and a mark that it is destroyed. Three
core attributes, named in any letter case, are not among the others: the id and the type are fixed,
and the third one is the mark of destruction, which takes truth values only.
-/

namespace BranchingStory

/-- The core attributes. -/
inductive CoreAttribute where
  | id
  | type
  | destroyed
  deriving DecidableEq, Repr

namespace CoreAttribute

/-- All core attributes. -/
def all : List CoreAttribute := [id, type, destroyed]

/-- The key of a core attribute. -/
def key : CoreAttribute → String
  | id => "EntityId"
  | type => "EntityType"
  | destroyed => "IsDestroyed"

/-- The core attribute that a key names in any letter case. -/
def ofKey? (key : String) : Option CoreAttribute :=
  all.find? fun core => Text.sameLetters core.key key

end CoreAttribute

/-- An entity of a world. -/
structure Entity where
  /-- The name of the entity. -/
  name : EntityId
  /-- The attributes, core attributes apart. -/
  attributes : Entries Value
  /-- The entity is destroyed. -/
  destroyed : Bool
  deriving Repr

namespace Entity

/-- A live entity without attributes. -/
def new (name : EntityId) : Entity := ⟨name, [], false⟩

/-- The value of an attribute other than the core ones. -/
def attribute? (e : Entity) (key : String) : Option Value := Entries.value? key e.attributes

/-- The entity has an attribute of the given key; core attributes are always there. -/
def hasAttribute (e : Entity) (key : String) : Bool :=
  (CoreAttribute.ofKey? key).isSome || Entries.has e.attributes key

/-- Give an attribute a value. -/
def setAttribute (e : Entity) (key : String) (v : Value) : Except AttributeError Entity :=
  match CoreAttribute.ofKey? key with
  | some .id | some .type => .error (.readOnly key)
  | some .destroyed =>
    match v with
    | .bool b => .ok { e with destroyed := b }
    | other => .error (.typeMismatch key .bool other.type)
  | none => .ok { e with attributes := Entries.put key v e.attributes }

/-- Give several attributes their values, in order, up to the first that fails. -/
def setAttributes (e : Entity) : Entries Value → Except AttributeError Entity
  | [] => .ok e
  | (key, v) :: rest =>
    match e.setAttribute key v with
    | .ok next => next.setAttributes rest
    | .error error => .error error

/-- Change an attribute by an operator. Core attributes can only be replaced. -/
def modifyAttribute (e : Entity) (key : String) (op : Operator) (operand : Value) :
    Except AttributeError Entity :=
  if (CoreAttribute.ofKey? key).isSome then
    if op = .equal then e.setAttribute key operand else .error (.coreOperator key op)
  else
    match op.apply key (e.attribute? key) operand with
    | .ok (some next) => .ok { e with attributes := Entries.put key next e.attributes }
    | .ok none => .ok e
    | .error error => .error error

/-- Giving an attribute a value keeps the name. -/
theorem name_setAttribute {e next : Entity} {key : String} {v : Value}
    (h : e.setAttribute key v = .ok next) : next.name = e.name := by
  unfold setAttribute at h
  split at h
  · cases h
  · cases h
  · split at h <;> cases h
    rfl
  · cases h
    rfl

/-- Giving several attributes their values keeps the name. -/
theorem name_setAttributes {e next : Entity} {attributes : Entries Value}
    (h : e.setAttributes attributes = .ok next) : next.name = e.name := by
  induction attributes generalizing e with
  | nil =>
    cases h
    rfl
  | cons entry attributes ih =>
    unfold setAttributes at h
    split at h
    · next hs => rw [ih h, name_setAttribute hs]
    · cases h

/-- Changing an attribute keeps the name. -/
theorem name_modifyAttribute {e next : Entity} {key : String} {op : Operator} {operand : Value}
    (h : e.modifyAttribute key op operand = .ok next) : next.name = e.name := by
  unfold modifyAttribute at h
  split at h
  · split at h
    · exact name_setAttribute h
    · cases h
  · split at h <;> cases h <;> rfl

/-- The two entities hold the same: name, mark and attributes by key. -/
def same (a b : Entity) : Bool :=
  a.name == b.name && a.destroyed == b.destroyed && Value.sameMap a.attributes b.attributes

instance : BEq Entity := ⟨same⟩

end Entity

end BranchingStory
