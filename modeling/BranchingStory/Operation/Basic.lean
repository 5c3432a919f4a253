import BranchingStory.Operator
import BranchingStory.Value.Display

/-!
# Operations

An operation creates, modifies or deletes the one entity that it targets. Two operations are the
same when they do the same to the same target with the same values.
-/

namespace BranchingStory

/-- An operation on one entity of a world. -/
inductive Operation where
  /-- Bring an entity into being with initial attributes. -/
  | create (target : EntityId) (attributes : Entries Value)
  /-- Change one attribute of a live entity. -/
  | modify (target : EntityId) (key : String) (op : Operator) (value : Value)
  /-- Destroy an entity. -/
  | delete (target : EntityId)
  deriving Repr

namespace Operation

/-- The entity that an operation targets. -/
def target : Operation → EntityId
  | create target _ => target
  | modify target _ _ _ => target
  | delete target => target

/-- The operation brings an entity into being. -/
def isCreate : Operation → Bool
  | create _ _ => true
  | _ => false

/-- The key of the attribute that a modification addresses. -/
def modifyKey? : Operation → Option String
  | modify _ key _ _ => some key
  | _ => none

/-- The same operation on the entity of the same kind with another id. -/
def retarget (id : String) : Operation → Operation
  | create target attributes => create { target with id } attributes
  | modify target key op value => modify { target with id } key op value
  | delete target => delete { target with id }

/-- The text of an operation. -/
def display : Operation → String
  | create target _ => "create " ++ target.display
  | modify target key op value =>
    "modify " ++ target.display ++ "." ++ key ++ " " ++ op.symbol ++ " " ++ value.display
  | delete target => "delete " ++ target.display

/-- The two operations are the same. -/
def same : Operation → Operation → Bool
  | create s a, create t b => s == t && Value.sameMap a b
  | modify s j o v, modify t k p w => s == t && j == k && o == p && v.same w
  | delete s, delete t => s == t
  | _, _ => false

instance : BEq Operation := ⟨same⟩

/-- A moved creation keeps its attributes. -/
theorem retarget_create (id : String) (target : EntityId) (attributes : Entries Value) :
    (create target attributes).retarget id = create ⟨target.kind, id⟩ attributes := rfl

/-- A moved modification keeps its key, its operator and its value. -/
theorem retarget_modify (id : String) (target : EntityId) (key : String) (op : Operator)
    (value : Value) : (modify target key op value).retarget id =
      modify ⟨target.kind, id⟩ key op value := rfl

/-- A moved deletion stays one. -/
theorem retarget_delete (id : String) (target : EntityId) :
    (delete target).retarget id = delete ⟨target.kind, id⟩ := rfl

/-- A moved operation has the new id. -/
@[simp] theorem target_retarget (id : String) (op : Operation) :
    (op.retarget id).target = { op.target with id } := by cases op <;> rfl

/-- Moving an operation keeps whether it creates. -/
@[simp] theorem isCreate_retarget (id : String) (op : Operation) :
    (op.retarget id).isCreate = op.isCreate := by cases op <;> rfl

/-- Moving an operation keeps the key that it addresses. -/
@[simp] theorem modifyKey?_retarget (id : String) (op : Operation) :
    (op.retarget id).modifyKey? = op.modifyKey? := by cases op <;> rfl

end Operation

end BranchingStory
