import BranchingStory.Locks

/-!
# Each lock is a queue

Seen from one id, the locks are a queue of the requests for it that were made and not given up: the
oldest holds the lock and the others wait in the order in which they were made. A request joins the
end of one queue, and a party that leaves drops out of all of them, wherever it stands.
-/

namespace BranchingStory

/-- What parties do with locks. -/
inductive LockCall where
  /-- The party asks for the lock of the id. -/
  | acquire (id party : String)
  /-- The party gives up all it holds and all it waits for. -/
  | release (party : String)
  deriving DecidableEq, Repr

namespace Locks

/-- The requests for one id. -/
def forId (id : String) (requests : List LockRequest) : List LockRequest :=
  requests.filter fun r => r.id == id

/-- The locks after a call. -/
def after (l : Locks) : LockCall → Locks
  | .acquire id party => l.acquire id party
  | .release party => l.release party

/-- The locks after calls one after the other. -/
def run (l : Locks) (calls : List LockCall) : Locks := calls.foldl after l

/-- The open requests after a call, in the order in which they were made. -/
def openAfter (opened : List LockRequest) : LockCall → List LockRequest
  | .acquire id party => opened ++ [⟨id, party⟩]
  | .release party => opened.filter fun r => r.party != party

/-- The locks serve the open requests: for each id the oldest is held and the others wait in
order. -/
def Serves (l : Locks) (opened : List LockRequest) : Prop :=
  ∀ id, forId id l.held = (forId id opened).take 1 ∧ forId id l.waiting = (forId id opened).drop 1

variable {l : Locks} {held waiting opened requests : List LockRequest} {id : String}

/-- One more request joins those for its id. -/
theorem forId_append_singleton (r : LockRequest) :
    forId id (requests ++ [r]) = forId id requests ++ if r.id = id then [r] else [] := by
  by_cases h : r.id = id <;> simp [forId, h]

/-- One more request comes before those for its id. -/
theorem forId_cons (r : LockRequest) :
    forId id (r :: requests) = (if r.id = id then [r] else []) ++ forId id requests := by
  by_cases h : r.id = id <;> simp [forId, h]

/-- A party leaves the requests for each id. -/
theorem forId_filter (p : LockRequest → Bool) :
    forId id (requests.filter p) = (forId id requests).filter p := by
  rw [forId, forId, List.filter_filter, List.filter_filter]
  exact List.filter_congr fun _ _ => Bool.and_comm _ _

/-- The lock of an id is held when a request for it is. -/
theorem isHeld_iff : isHeld held id = true ↔ forId id held ≠ [] := by
  simp [isHeld, forId, List.filter_eq_nil_iff]

/-- Granting is seen from one id, held once at most: the first of the requests held and then waiting
is held, and the others wait. -/
theorem forId_grant (hheld : (forId id held).length ≤ 1) :
    forId id (grant held waiting).1 = (forId id held ++ forId id waiting).take 1 ∧
      forId id (grant held waiting).2 = (forId id held ++ forId id waiting).drop 1 := by
  induction waiting generalizing held with
  | nil =>
    have hnil : forId id [] = [] := rfl
    rw [grant, hnil, List.append_nil, List.take_of_length_le hheld, List.drop_eq_nil_of_le hheld]
    exact ⟨rfl, rfl⟩
  | cons r rest ih =>
    rw [grant]
    split
    · next hr =>
      -- the request waits on: if it is for the id, the one held comes first in both lists
      obtain ⟨hfirst, hrest⟩ := ih hheld
      rw [forId_cons, forId_cons, hfirst, hrest]
      by_cases hid : r.id = id
      · obtain ⟨a, ha⟩ : ∃ a, forId id held = [a] := by
          rw [hid, isHeld_iff, ← List.length_pos_iff] at hr
          exact List.length_eq_one_iff.1 (by omega)
        simp [hid, ha]
      · simp [hid]
    · next hr =>
      by_cases hid : r.id = id
      · have hnil : forId id held = [] := by
          rwa [hid, isHeld_iff, Classical.not_not] at hr
        have hmoved : (forId id (held ++ [r])).length ≤ 1 := by
          simp [forId_append_singleton, hnil, hid]
        rw [(ih hmoved).1, (ih hmoved).2, forId_append_singleton, forId_cons]
        simp [hnil]
      · have hsame : forId id (held ++ [r]) = forId id held := by
          simp [forId_append_singleton, hid]
        rw [← hsame] at hheld
        rw [(ih hheld).1, (ih hheld).2, hsame, forId_cons, if_neg hid, List.nil_append]
        exact ⟨rfl, rfl⟩

/-- A request for a lock that is held waits. -/
theorem acquire_of_isHeld (h : isHeld l.held id = true) (party : String) :
    (l.acquire id party).held = l.held ∧
      (l.acquire id party).waiting = l.waiting ++ [⟨id, party⟩] := by
  simp [acquire, h]

/-- A request for a lock that nobody holds is granted. -/
theorem acquire_of_not_isHeld (h : ¬ isHeld l.held id = true) (party : String) :
    (l.acquire id party).held = l.held ++ [⟨id, party⟩] ∧
      (l.acquire id party).waiting = l.waiting := by
  simp [acquire, h]

/-- The first request for an id brings in its lock. -/
theorem ids_acquire (id party : String) :
    (l.acquire id party).ids = if id ∈ l.ids then l.ids else l.ids ++ [id] := by
  by_cases h : isHeld l.held id = true <;> simp [acquire, h]

/-- A request joins the end of its queue. -/
theorem Serves.acquire (h : l.Serves opened) (id party : String) :
    (l.acquire id party).Serves (opened ++ [⟨id, party⟩]) := by
  intro other
  obtain ⟨hheld, hwaiting⟩ := h other
  rw [forId_append_singleton]
  by_cases hbusy : isHeld l.held id = true
  · rw [(acquire_of_isHeld hbusy party).1, (acquire_of_isHeld hbusy party).2,
      forId_append_singleton, hheld, hwaiting]
    by_cases hid : id = other
    · subst hid
      rw [isHeld_iff, hheld] at hbusy
      obtain ⟨a, rest, hopened⟩ : ∃ a rest, forId id opened = a :: rest :=
        List.exists_cons_of_ne_nil fun hnil => hbusy (by rw [hnil]; rfl)
      simp [hopened]
    · simp [hid]
  · rw [(acquire_of_not_isHeld hbusy party).1, (acquire_of_not_isHeld hbusy party).2,
      forId_append_singleton, hheld, hwaiting]
    by_cases hid : id = other
    · subst hid
      rw [isHeld_iff, Classical.not_not, hheld, List.take_eq_nil_iff] at hbusy
      have hnil : forId id opened = [] := hbusy.resolve_left Nat.one_ne_zero
      simp [hnil]
    · simp [hid]

/-- A party that leaves drops out of every queue. -/
theorem Serves.release (h : l.Serves opened) (party : String) :
    (l.release party).Serves (opened.filter fun r => r.party != party) := by
  intro id
  obtain ⟨hheld, hwaiting⟩ := h id
  have hone : (forId id (l.held.filter fun r => r.party != party)).length ≤ 1 := by
    rw [forId_filter, hheld]
    exact Nat.le_trans (List.length_filter_le _ _) (List.length_take_le 1 _)
  have hopen : forId id (l.held.filter fun r => r.party != party) ++
      forId id (l.waiting.filter fun r => r.party != party) =
        forId id (opened.filter fun r => r.party != party) := by
    rw [forId_filter, forId_filter, forId_filter, hheld, hwaiting, ← List.filter_append,
      List.take_append_drop]
  rw [← hopen]
  exact forId_grant hone

/-- A call keeps the locks at serving the open requests. -/
theorem Serves.after (h : l.Serves opened) (call : LockCall) :
    (l.after call).Serves (openAfter opened call) := by
  cases call with
  | acquire id party => exact h.acquire id party
  | release party => exact h.release party

/-- Without requests there is nothing to serve. -/
theorem serves_empty : empty.Serves [] := fun _ => ⟨rfl, rfl⟩

end Locks

end BranchingStory
