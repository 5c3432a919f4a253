/-!
# Locks

There is one lock for each id that was ever asked for. A lock has at most one holder and serves
those who wait for it in the order of their requests. A party that leaves gives up all its holds and
all its requests, and every lock that becomes free by that goes to the first who waits for it.
-/

namespace BranchingStory

/-- A party's request for the lock of an id. -/
structure LockRequest where
  /-- The id that the lock belongs to. -/
  id : String
  /-- The party that asks. -/
  party : String
  deriving DecidableEq, Repr

/-- The locks with those who hold them and those who wait. -/
structure Locks where
  /-- The ids with a lock, oldest first. -/
  ids : List String
  /-- The requests that were granted and not given up, in the order of their granting. -/
  held : List LockRequest
  /-- The requests that wait, in the order in which they were made. -/
  waiting : List LockRequest
  deriving DecidableEq, Repr

namespace Locks

/-- No locks. -/
def empty : Locks := ⟨[], [], []⟩

/-- The lock of the id has a holder. -/
def isHeld (held : List LockRequest) (id : String) : Bool := held.any fun r => r.id == id

/-- A party asks for the lock of an id: it holds it at once if nobody does, and waits otherwise. -/
def acquire (l : Locks) (id party : String) : Locks :=
  let ids := if id ∈ l.ids then l.ids else l.ids ++ [id]
  if isHeld l.held id then { l with ids, waiting := l.waiting ++ [⟨id, party⟩] }
  else { l with ids, held := l.held ++ [⟨id, party⟩] }

/-- The requests whose lock is free are granted in the order of waiting, one for each lock: the
granted requests behind those held, and the requests that still wait. -/
def grant (held : List LockRequest) : List LockRequest → List LockRequest × List LockRequest
  | [] => (held, [])
  | r :: rest =>
    if isHeld held r.id then
      let (granted, waiting) := grant held rest
      (granted, r :: waiting)
    else grant (held ++ [r]) rest

/-- A party leaves. -/
def release (l : Locks) (party : String) : Locks :=
  let (held, waiting) :=
    grant (l.held.filter fun r => r.party != party) (l.waiting.filter fun r => r.party != party)
  { l with held, waiting }

/-- How many locks there are. -/
def size (l : Locks) : Nat := l.ids.length

end Locks

end BranchingStory
