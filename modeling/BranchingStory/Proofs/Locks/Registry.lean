import BranchingStory.Entries
import BranchingStory.Proofs.Locks.Mutex
import BranchingStory.Proofs.Locks.Queues
import Mathlib.Data.List.Nodup
import Mathlib.Data.List.Perm.Basic

/-!
# Locks made of mutexes

A mutex is made on the first request for an id and never taken away, so all requests for one id meet
at one mutex. Each request has a number, and a party that leaves gives up all its requests, granted
or not, one after the other in any order. Whatever happens, at each mutex are the open requests that
were made there, in the order in which they were made.
-/

namespace BranchingStory

/-- A request that was made and not given up. -/
structure Ticket where
  /-- How many requests were made before it. -/
  number : Nat
  /-- Who asks for what. -/
  request : LockRequest
  /-- The place of the mutex that was asked. -/
  place : Nat
  deriving DecidableEq, Repr

/-- The mutexes that serve as locks, with what their users keep. -/
structure Registry (M : Type) where
  /-- The mutexes, each in a place of its own for good. -/
  mutexes : List M
  /-- The place of the mutex for each id, oldest id first. -/
  places : Entries Nat
  /-- The open requests, oldest first. -/
  tickets : List Ticket
  /-- How many requests were made. -/
  made : Nat

namespace Registry

variable {M : Type} {mutex : Mutex M}

/-- No mutexes and no requests. -/
def empty : Registry M := ⟨[], [], [], 0⟩

/-- A mutex is made for an id. -/
def make (mutex : Mutex M) (r : Registry M) (id : String) : Registry M :=
  { r with
    mutexes := r.mutexes ++ [mutex.new]
    places := Entries.put id r.mutexes.length r.places }

/-- The place of the mutex for an id, which is made when there is none. -/
def lockFor (mutex : Mutex M) (r : Registry M) (id : String) : Nat × Registry M :=
  match Entries.value? id r.places with
  | some place => (place, r)
  | none => (r.mutexes.length, r.make mutex id)

/-- A request is made at the mutex in a place. -/
def enqueue (mutex : Mutex M) (r : Registry M) (request : LockRequest) (place : Nat) : Registry M :=
  { r with
    mutexes := r.mutexes.modify place (mutex.request r.made)
    tickets := r.tickets ++ [⟨r.made, request, place⟩]
    made := r.made + 1 }

/-- A party asks for the lock of an id. -/
def acquire (mutex : Mutex M) (r : Registry M) (id party : String) : Registry M :=
  let (place, r) := r.lockFor mutex id
  r.enqueue mutex ⟨id, party⟩ place

/-- One request is given up. -/
def giveUp (mutex : Mutex M) (r : Registry M) (t : Ticket) : Registry M :=
  { r with
    mutexes := r.mutexes.modify t.place (mutex.giveUp t.number)
    tickets := r.tickets.filter fun u => u.number != t.number }

/-- The open requests of a party. -/
def ticketsOf (r : Registry M) (party : String) : List Ticket :=
  r.tickets.filter fun t => t.request.party == party

/-- The open requests for an id, in the order in which they were made. -/
def openOn (r : Registry M) (id : String) : List Ticket :=
  r.tickets.filter fun t => t.request.id == id

/-- The mutex for an id, if there is one. -/
def mutexOf? (r : Registry M) (id : String) : Option M :=
  (Entries.value? id r.places).bind fun place => r.mutexes[place]?

/-- The request that holds the lock of an id. -/
def holder? (mutex : Mutex M) (r : Registry M) (id : String) : Option Nat :=
  (r.mutexOf? id).bind mutex.holder?

/-- The requests that wait for the lock of an id. -/
def waiters (mutex : Mutex M) (r : Registry M) (id : String) : List Nat :=
  (r.mutexOf? id).elim [] mutex.waiters

/-- What a call does. A party that leaves gives up its requests in any order. -/
inductive Step (mutex : Mutex M) : Registry M → LockCall → Registry M → Prop where
  | acquire (r : Registry M) (id party : String) :
    Step mutex r (.acquire id party) (r.acquire mutex id party)
  | release (r : Registry M) (party : String) (order : List Ticket)
    (horder : order.Perm (r.ticketsOf party)) :
    Step mutex r (.release party) (order.foldl (giveUp mutex) r)

/-- What calls do one after the other. -/
inductive Runs (mutex : Mutex M) : Registry M → List LockCall → Registry M → Prop where
  | nil (r : Registry M) : Runs mutex r [] r
  | cons {r next last : Registry M} {call : LockCall} {calls : List LockCall}
    (step : Step mutex r call next) (rest : Runs mutex next calls last) :
    Runs mutex r (call :: calls) last

/-- What holds of the mutexes at every moment. -/
structure Sound (mutex : Mutex M) (r : Registry M) : Prop where
  /-- The mutexes are in the order of their ids. -/
  places : r.places.map Prod.snd = List.range r.mutexes.length
  /-- No id has two mutexes. -/
  distinct : Entries.Distinct r.places
  /-- An open request was made at the mutex of its id. -/
  placed : ∀ t ∈ r.tickets, Entries.value? t.request.id r.places = some t.place
  /-- The open requests are in the order of their numbers. -/
  numbered : (r.tickets.map Ticket.number).Pairwise (· < ·)
  /-- The next number is larger than theirs. -/
  made : ∀ t ∈ r.tickets, t.number < r.made
  /-- At each mutex are the open requests that were made there, in order. -/
  queues : ∀ place m, r.mutexes[place]? = some m →
    mutex.Queues m ((r.tickets.filter fun t => t.place == place).map Ticket.number)

variable {r next last : Registry M} {id other party : String} {place : Nat} {t u : Ticket}
  {call : LockCall} {calls : List LockCall}

/-- A request for an id that has a mutex is made at that mutex. -/
theorem acquire_eq_of_some (h : Entries.value? id r.places = some place) :
    r.acquire mutex id party = r.enqueue mutex ⟨id, party⟩ place := by
  rw [acquire, lockFor, h]

/-- The first request for an id is made at a new mutex. -/
theorem acquire_eq_of_none (h : Entries.value? id r.places = none) :
    r.acquire mutex id party =
      (r.make mutex id).enqueue mutex ⟨id, party⟩ r.mutexes.length := by
  rw [acquire, lockFor, h]

namespace Sound

/-- The place of an id is a place of a mutex. -/
theorem place_lt (h : Sound mutex r) (hplace : Entries.value? id r.places = some place) :
    place < r.mutexes.length := by
  have hmem := List.mem_map_of_mem (f := Prod.snd) (Entries.mem_of_value? hplace)
  rw [h.places] at hmem
  exact List.mem_range.1 hmem

/-- Different ids have different places. -/
theorem id_eq (h : Sound mutex r) (hid : Entries.value? id r.places = some place)
    (hother : Entries.value? other r.places = some place) : id = other := by
  have hnodup : (r.places.map Prod.snd).Nodup := h.places ▸ List.nodup_range
  have heq := List.inj_on_of_nodup_map hnodup (Entries.mem_of_value? hid)
    (Entries.mem_of_value? hother) rfl
  exact (Prod.mk.inj heq).1

/-- An open request is known by its number. -/
theorem ticket_eq (h : Sound mutex r) (ht : t ∈ r.tickets) (hu : u ∈ r.tickets)
    (hnumber : t.number = u.number) : t = u :=
  List.inj_on_of_nodup_map (h.numbered.imp Nat.ne_of_lt) ht hu hnumber

/-- Without mutexes and requests all is sound. -/
theorem empty : Sound mutex Registry.empty where
  places := rfl
  distinct := List.nodup_nil
  placed := List.forall_mem_nil _
  numbered := .nil
  made := List.forall_mem_nil _
  queues _ _ h := by cases h

/-- Making a mutex for an id that has none keeps all sound. -/
theorem make (fair : mutex.Fair) (h : Sound mutex r) (hnone : Entries.value? id r.places = none) :
    Sound mutex (r.make mutex id) where
  places := by
    have hnew : id ∉ Entries.keys r.places := by
      rw [Entries.mem_keys_iff, hnone]
      exact Bool.false_ne_true
    rw [Registry.make, Entries.put_of_not_mem hnew, List.map_append, h.places, List.length_append]
    exact List.range_succ.symm
  distinct := h.distinct.put id _
  placed t ht := by
    have hplaced := h.placed t ht
    have hne : id ≠ t.request.id := fun he => by
      rw [← he, hnone] at hplaced
      cases hplaced
    rw [Registry.make, Entries.value?_put_ne hne, hplaced]
  numbered := h.numbered
  made := h.made
  queues place m hm := by
    rw [Registry.make, List.getElem?_append] at hm
    split at hm
    · exact h.queues place m hm
    · next hplace =>
      -- nobody has asked at the new mutex, whose place lies behind all others
      have hnil : r.tickets.filter (fun t => t.place == place) = [] := by
        rw [List.filter_eq_nil_iff]
        intro t ht heq
        have hlt := h.place_lt (h.placed t ht)
        rw [beq_iff_eq] at heq
        omega
      rw [List.getElem?_singleton] at hm
      split at hm
      · cases hm
        rw [Registry.make, hnil]
        exact fair.queues_new
      · cases hm

/-- A request at the mutex of its id keeps all sound. -/
theorem enqueue (fair : mutex.Fair) (h : Sound mutex r) {request : LockRequest}
    (hplace : Entries.value? request.id r.places = some place) :
    Sound mutex (r.enqueue mutex request place) where
  places := by rw [Registry.enqueue, List.length_modify, h.places]
  distinct := h.distinct
  placed := List.forall_mem_append.2 ⟨h.placed, List.forall_mem_singleton.2 hplace⟩
  numbered := by
    rw [Registry.enqueue, List.map_append, List.pairwise_append]
    refine ⟨h.numbered, List.pairwise_singleton _ _, ?_⟩
    simpa using h.made
  made := by
    refine List.forall_mem_append.2 ⟨fun t ht => Nat.lt_succ_of_lt (h.made t ht), ?_⟩
    exact List.forall_mem_singleton.2 (Nat.lt_succ_self _)
  queues other m hm := by
    rw [Registry.enqueue, List.getElem?_modify] at hm
    obtain ⟨before, hbefore, rfl⟩ := Option.map_eq_some_iff.1 hm
    have hqueues := h.queues other before hbefore
    rw [Registry.enqueue, List.filter_append, List.map_append]
    by_cases heq : place = other
    · simpa [heq] using fair.queues_request hqueues
    · simpa [heq] using hqueues

/-- No request leaves a mutex when one at another is given up. -/
theorem filter_place_of_ne (h : Sound mutex r) (ht : t ∈ r.tickets) (hne : t.place ≠ place) :
    r.tickets.filter (fun u => u.place == place && u.number != t.number) =
      r.tickets.filter fun u => u.place == place := by
  refine List.filter_congr fun u hu => ?_
  by_cases hnumber : u.number = t.number
  · have hplace : (u.place == place) = false := by
      rw [h.ticket_eq hu ht hnumber]
      simpa using hne
    rw [hplace, Bool.false_and]
  · rw [bne_iff_ne.2 hnumber, Bool.and_true]

/-- Giving up an open request keeps all sound. -/
theorem giveUp (fair : mutex.Fair) (h : Sound mutex r) (ht : t ∈ r.tickets) :
    Sound mutex (r.giveUp mutex t) where
  places := by rw [Registry.giveUp, List.length_modify, h.places]
  distinct := h.distinct
  placed u hu := h.placed u (List.mem_of_mem_filter hu)
  numbered := h.numbered.sublist (List.filter_sublist.map _)
  made u hu := h.made u (List.mem_of_mem_filter hu)
  queues place m hm := by
    rw [Registry.giveUp, List.getElem?_modify] at hm
    obtain ⟨before, hbefore, rfl⟩ := Option.map_eq_some_iff.1 hm
    have hqueues := h.queues place before hbefore
    rw [Registry.giveUp, List.filter_filter]
    by_cases heq : t.place = place
    · have hmem : t.number ∈ (r.tickets.filter fun u => u.place == place).map Ticket.number :=
        List.mem_map_of_mem (List.mem_filter.2 ⟨ht, by simpa using heq⟩)
      have hnodup : ((r.tickets.filter fun u => u.place == place).map Ticket.number).Nodup :=
        (h.numbered.imp Nat.ne_of_lt).sublist (List.filter_sublist.map _)
      have herased := fair.queues_giveUp hqueues hmem
      rw [hnodup.erase_eq_filter, List.filter_map, List.filter_filter] at herased
      rw [if_pos heq]
      simpa only [Function.comp_apply, Bool.and_comm] using herased
    · rw [h.filter_place_of_ne ht heq, if_neg heq]
      exact hqueues

/-- Asking for the lock of an id keeps all sound. -/
theorem acquire (fair : mutex.Fair) (h : Sound mutex r) (id party : String) :
    Sound mutex (r.acquire mutex id party) := by
  cases hplace : Entries.value? id r.places with
  | some place =>
    rw [acquire_eq_of_some hplace]
    exact h.enqueue fair hplace
  | none =>
    rw [acquire_eq_of_none hplace]
    exact (h.make fair hplace).enqueue fair (Entries.value?_put_self id _ _)

/-- Giving up open requests one after the other keeps all sound. -/
theorem foldl_giveUp (fair : mutex.Fair) {order : List Ticket} (hnodup : order.Nodup) :
    Sound mutex r → (∀ t ∈ order, t ∈ r.tickets) →
      Sound mutex (order.foldl (Registry.giveUp mutex) r) := by
  induction order generalizing r with
  | nil => exact fun h _ => h
  | cons t order ih =>
    intro h hopen
    rw [List.forall_mem_cons] at hopen
    rw [List.nodup_cons] at hnodup
    refine ih hnodup.2 (h.giveUp fair hopen.1) fun u hu => ?_
    have hne : u.number ≠ t.number := fun he =>
      hnodup.1 (h.ticket_eq (hopen.2 u hu) hopen.1 he ▸ hu)
    exact List.mem_filter.2 ⟨hopen.2 u hu, by simpa using hne⟩

end Sound

/-- Giving up requests takes away them and no others. -/
theorem tickets_foldl_giveUp (order : List Ticket) : (order.foldl (giveUp mutex) r).tickets =
    r.tickets.filter fun u => u.number ∉ order.map Ticket.number := by
  induction order generalizing r with
  | nil => simp
  | cons t order ih =>
    rw [List.foldl_cons, ih, giveUp, List.filter_filter]
    refine List.filter_congr fun u _ => ?_
    by_cases h : u.number = t.number <;> simp [h]

/-- Giving up requests keeps the mutex of each id. -/
theorem places_foldl_giveUp (order : List Ticket) :
    (order.foldl (giveUp mutex) r).places = r.places := by
  induction order generalizing r with
  | nil => rfl
  | cons t order ih => exact ih

/-- Giving up requests makes none. -/
theorem made_foldl_giveUp (order : List Ticket) :
    (order.foldl (giveUp mutex) r).made = r.made := by
  induction order generalizing r with
  | nil => rfl
  | cons t order ih => exact ih

/-- When a party leaves, the requests of the others stay open. -/
theorem Sound.tickets_release (h : Sound mutex r) {order : List Ticket}
    (horder : order.Perm (r.ticketsOf party)) : (order.foldl (Registry.giveUp mutex) r).tickets =
      r.tickets.filter fun t => t.request.party != party := by
  rw [tickets_foldl_giveUp]
  refine List.filter_congr fun u hu => ?_
  have hiff : u.number ∈ order.map Ticket.number ↔ u.request.party = party := by
    rw [(horder.map _).mem_iff, List.mem_map]
    constructor
    · rintro ⟨t, ht, hnumber⟩
      rw [ticketsOf, List.mem_filter, beq_iff_eq] at ht
      exact h.ticket_eq ht.1 hu hnumber ▸ ht.2
    · exact fun hparty => ⟨u, List.mem_filter.2 ⟨hu, by simpa using hparty⟩, rfl⟩
  by_cases hparty : u.request.party = party <;> simp [hiff, hparty]

/-- A call keeps all sound. -/
theorem Sound.step (fair : mutex.Fair) (h : Sound mutex r) (step : Step mutex r call next) :
    Sound mutex next := by
  cases step with
  | acquire id party => exact h.acquire fair id party
  | release party order horder =>
    have hnodup : r.tickets.Nodup :=
      (h.numbered.imp Nat.ne_of_lt).of_map _ fun _ _ => mt (congrArg _)
    refine h.foldl_giveUp fair (horder.nodup_iff.2 (hnodup.filter _)) fun t ht => ?_
    exact List.mem_of_mem_filter (horder.mem_iff.1 ht)

/-- Calls keep all sound. -/
theorem Sound.run (fair : mutex.Fair) (h : Sound mutex r) (run : Runs mutex r calls last) :
    Sound mutex last := by
  induction run with
  | nil => exact h
  | cons step _ ih => exact ih (h.step fair step)

/-- The newest request is the one that was just made. -/
theorem tickets_acquire (mutex : Mutex M) (r : Registry M) (id party : String) : ∃ place,
    (r.acquire mutex id party).tickets = r.tickets ++ [⟨r.made, ⟨id, party⟩, place⟩] := by
  cases hplace : Entries.value? id r.places with
  | some place => exact ⟨place, by rw [acquire_eq_of_some hplace]; rfl⟩
  | none => exact ⟨_, by rw [acquire_eq_of_none hplace]; rfl⟩

/-- A request counts as made. -/
theorem made_acquire (id party : String) : (r.acquire mutex id party).made = r.made + 1 := by
  cases hplace : Entries.value? id r.places with
  | some place => rw [acquire_eq_of_some hplace]; rfl
  | none => rw [acquire_eq_of_none hplace]; rfl

/-- The first request for an id makes its mutex. -/
theorem keys_acquire (id party : String) : Entries.keys (r.acquire mutex id party).places =
    if id ∈ Entries.keys r.places then Entries.keys r.places
    else Entries.keys r.places ++ [id] := by
  cases hplace : Entries.value? id r.places with
  | some place =>
    have hmem : id ∈ Entries.keys r.places := (Entries.mem_keys_iff id _).2 (by rw [hplace]; rfl)
    rw [acquire_eq_of_some hplace, if_pos hmem]
    rfl
  | none =>
    rw [acquire_eq_of_none hplace, ← Entries.keys_put]
    rfl

end Registry

end BranchingStory
