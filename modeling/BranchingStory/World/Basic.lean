import BranchingStory.Entity
import BranchingStory.Table

/-!
# Worlds

A world stores entities by kind and id, destroyed ones included. An entity is live as long as it is
stored and not destroyed. Listings go by kind and, within a kind, in the order of the ids.
-/

namespace BranchingStory

/-- The entities of a world, by kind and id. -/
structure World where
  /-- The stored items by id. -/
  items : Table Entity
  /-- The stored characters by id. -/
  characters : Table Entity
  /-- The stored places by id. -/
  places : Table Entity
  deriving Repr, Inhabited

namespace World

/-- The world without entities. -/
def empty : World := ⟨.empty, .empty, .empty⟩

/-- The stored entities of one kind. -/
def table (w : World) : EntityKind → Table Entity
  | .item => w.items
  | .character => w.characters
  | .place => w.places

/-- The entity stored under a name, destroyed or not. -/
def stored? (w : World) (target : EntityId) : Option Entity := (w.table target.kind).get? target.id

/-- The live entity of a name. -/
def live? (w : World) (target : EntityId) : Option Entity :=
  (w.stored? target).filter fun e => !e.destroyed

/-- The name has a live entity. -/
def contains (w : World) (target : EntityId) : Bool := (w.live? target).isSome

/-- Store an entity under a name. -/
def store (w : World) (target : EntityId) (e : Entity) : World :=
  match target.kind with
  | .item => { w with items := w.items.insert target.id e }
  | .character => { w with characters := w.characters.insert target.id e }
  | .place => { w with places := w.places.insert target.id e }

/-- The stored entities of one kind in the order of their ids. -/
def entities (w : World) (kind : EntityKind) : List Entity := (w.table kind).values

/-- The live entities by kind, and in the order of their ids. -/
def liveEntities (w : World) : List Entity :=
  (EntityKind.all.flatMap w.entities).filter fun e => !e.destroyed

/-- How many entities are stored. -/
def size (w : World) : Nat := w.items.size + w.characters.size + w.places.size

/-- The two tables have the same ids with entities that hold the same. -/
def sameTable : List (String × Entity) → List (String × Entity) → Bool
  | [], [] => true
  | a :: as, b :: bs => a.1 == b.1 && a.2.same b.2 && sameTable as bs
  | _, _ => false

/-- The two worlds hold the same entities. -/
def same (v w : World) : Bool :=
  EntityKind.all.all fun kind => sameTable (v.table kind).entries (w.table kind).entries

instance : BEq World := ⟨same⟩

/-- A name without a live entity finds none. -/
theorem live?_eq_none_iff {w : World} {target : EntityId} :
    w.live? target = none ↔ w.contains target = false := by
  rw [contains, Option.isSome_eq_false_iff, Option.isNone_iff_eq_none]

@[simp] theorem stored?_empty (target : EntityId) : empty.stored? target = none := by
  cases target with
  | mk kind id => cases kind <;> rfl

/-- What was stored is found. -/
@[simp] theorem stored?_store_self (w : World) (target : EntityId) (e : Entity) :
    (w.store target e).stored? target = some e := by
  cases target with
  | mk kind id => cases kind <;> simp [stored?, store, table]

/-- Storing under one name leaves the others alone. -/
theorem stored?_store_ne (w : World) {target other : EntityId} (h : target ≠ other) (e : Entity) :
    (w.store target e).stored? other = w.stored? other := by
  cases target with
  | mk kind id =>
    cases other with
    | mk kind' id' =>
      cases kind <;> cases kind' <;> simp only [stored?, store, table] <;>
        exact Table.get?_insert_ne _ (fun he => h (by rw [he])) _

/-- Worlds that store the same under every name are equal. -/
theorem ext_stored? {v w : World} (h : ∀ target, v.stored? target = w.stored? target) : v = w := by
  have hi : v.items = w.items := Table.ext_get? fun id => h ⟨.item, id⟩
  have hc : v.characters = w.characters := Table.ext_get? fun id => h ⟨.character, id⟩
  have hp : v.places = w.places := Table.ext_get? fun id => h ⟨.place, id⟩
  cases v
  cases w
  simp_all

end World

end BranchingStory
