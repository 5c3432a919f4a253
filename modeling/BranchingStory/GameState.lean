import BranchingStory.Value.Wire

/-!
# Game state

The settings that a block keeps outside its world: values by key in the order of their arrival.
Setting a key again keeps its place.
-/

namespace BranchingStory

/-- Settings by key. -/
structure GameState where
  /-- The settings in the order of their arrival. -/
  settings : Entries Value
  deriving Repr, Inhabited

namespace GameState

/-- No settings. -/
def empty : GameState := ⟨[]⟩

/-- The value of a key. -/
def get? (g : GameState) (key : String) : Option Value := Entries.value? key g.settings

/-- Give a key a value. -/
def set (g : GameState) (key : String) (v : Value) : GameState := ⟨Entries.put key v g.settings⟩

/-- Take a key away. -/
def remove (g : GameState) (key : String) : GameState := ⟨Entries.remove key g.settings⟩

/-- Set all keys of an entry list, in its order. -/
def apply (g : GameState) (settings : Entries Value) : GameState :=
  ⟨Entries.putAll g.settings settings⟩

/-- How many keys there are. -/
def size (g : GameState) : Nat := g.settings.length

/-- The two states hold the same value for every key. -/
def same (g h : GameState) : Bool := Value.sameMap g.settings h.settings

instance : BEq GameState := ⟨same⟩

/-- The document of a game state. -/
def toJson (g : GameState) : Json := .object (Value.entriesToJson g.settings)

/-- The game state that a document is. -/
def ofJson? (j : Json) : Option GameState := (Value.entriesOf? j).map GameState.mk

/-- What was set is found. -/
theorem get?_set_self (g : GameState) (key : String) (v : Value) :
    (g.set key v).get? key = some v :=
  Entries.value?_put_self key v g.settings

end GameState

end BranchingStory
