import BranchingStory.Json.Basic
import BranchingStory.Table

/-!
# Documents without an order of fields

Where the order of fields carries no meaning an object is put into the order of its keys, and of a
key given more than once the last value counts.
-/

namespace BranchingStory.Json

mutual

/-- The document with the fields of every object in the order of their keys, each key once. -/
def sorted : Json → Json
  | .array items => .array (sortedItems items)
  | .object fields => .object (Table.ofList (sortedFields fields)).entries
  | j => j

/-- The items with their objects sorted. -/
def sortedItems : List Json → List Json
  | [] => []
  | j :: rest => j.sorted :: sortedItems rest

/-- The fields with their objects sorted. -/
def sortedFields : List (String × Json) → List (String × Json)
  | [] => []
  | (key, j) :: rest => (key, j.sorted) :: sortedFields rest

end

end BranchingStory.Json
