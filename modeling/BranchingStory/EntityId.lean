import BranchingStory.Text.Blank

/-!
# Names of entities

An entity is named by its kind and an id that is unique within the kind. The kinds are ordered, and
the names of entities by kind first and by id within one kind.
-/

namespace BranchingStory

/-- The kinds of entities in a world. -/
inductive EntityKind where
  | item
  | character
  | place
  deriving DecidableEq, Repr

namespace EntityKind

/-- All kinds in their order. -/
def all : List EntityKind := [item, character, place]

/-- The position of a kind among all. -/
def index : EntityKind → Nat
  | item => 0
  | character => 1
  | place => 2

/-- The name of a kind. -/
def name : EntityKind → String
  | item => "Item"
  | character => "Character"
  | place => "Place"

/-- The kind of the given name, letter for letter. -/
def ofName? (s : String) : Option EntityKind := all.find? fun k => k.name == s

/-- A text that names no kind. -/
structure Unknown where
  /-- The text. -/
  text : String
  deriving DecidableEq, Repr

/-- What is said about a text that names no kind. -/
def Unknown.message (e : Unknown) : String := "unknown entity kind: " ++ e.text

/-- The kind that a text names in any letter case. -/
def ofText (s : String) : Except Unknown EntityKind :=
  match all.find? fun k => Text.sameLetters k.name s with
  | some kind => .ok kind
  | none => .error ⟨s⟩

/-- Reading the name of a kind gives the kind. -/
theorem ofName?_name (k : EntityKind) : ofName? k.name = some k := by cases k <;> decide

end EntityKind

/-- The name of an entity. -/
structure EntityId where
  /-- The kind of the entity. -/
  kind : EntityKind
  /-- The id, unique within the kind. -/
  id : String
  deriving DecidableEq, Repr

namespace EntityId

/-- Kind and id as they are shown. -/
def display (e : EntityId) : String := e.kind.name ++ ":" ++ e.id

/-- The order by kind and then by id. -/
def le (a b : EntityId) : Bool :=
  decide (a.kind.index < b.kind.index) || (a.kind == b.kind && decide (a.id ≤ b.id))

end EntityId

end BranchingStory
