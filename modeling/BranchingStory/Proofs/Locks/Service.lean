import BranchingStory.Proofs.Locks.Registry

/-!
# Locks exclude, serve in order and do not interfere

The locks of a story list what fair mutexes do. At every moment each id has one holder at most, an
id that somebody waits for has one, and the oldest open request is the one that is granted. So the
requests for an id are granted in the order in which they were made, those given up are passed over,
and what happens at one id is nothing to another.
-/

namespace BranchingStory

namespace Registry

variable {M : Type} {mutex : Mutex M} {r next last : Registry M} {id : String} {t : Ticket}
  {call : LockCall} {calls : List LockCall}

/-- At an id are the open requests for it: the oldest holds the lock and the others wait. -/
theorem Sound.queues_openOn (h : Sound mutex r) (id : String) :
    r.holder? mutex id = ((r.openOn id).map Ticket.number).head? ∧
      r.waiters mutex id = ((r.openOn id).map Ticket.number).tail := by
  cases hplace : Entries.value? id r.places with
  | none =>
    have hnil : r.openOn id = [] := by
      rw [openOn, List.filter_eq_nil_iff]
      intro t ht heq
      rw [beq_iff_eq] at heq
      have hplaced := h.placed t ht
      rw [heq, hplace] at hplaced
      cases hplaced
    rw [hnil, holder?, waiters, mutexOf?, hplace]
    exact ⟨rfl, rfl⟩
  | some place =>
    have hsame : r.openOn id = r.tickets.filter fun t => t.place == place := by
      refine List.filter_congr fun t ht => ?_
      have hplaced := h.placed t ht
      have hiff : t.request.id = id ↔ t.place = place := by
        constructor
        · rintro rfl
          rw [hplaced] at hplace
          exact Option.some.inj hplace
        · rintro rfl
          exact h.id_eq hplaced hplace
      by_cases hid : t.request.id = id
      · rw [beq_iff_eq.2 hid, beq_iff_eq.2 (hiff.1 hid)]
      · rw [beq_eq_false_iff_ne.2 hid, beq_eq_false_iff_ne.2 fun he => hid (hiff.2 he)]
    have hm := List.getElem?_eq_getElem (h.place_lt hplace)
    rw [hsame, holder?, waiters, mutexOf?, hplace, Option.bind_some, hm]
    exact h.queues place _ hm

/-- The numbers of the requests for an id grow. -/
theorem Sound.pairwise_openOn (h : Sound mutex r) (id : String) :
    ((r.openOn id).map Ticket.number).Pairwise (· < ·) :=
  h.numbered.sublist (List.filter_sublist.map _)

/-- The locks list the requests that are open and the ids that have a mutex. -/
structure ListedBy (r : Registry M) (l : Locks) : Prop where
  /-- The ids with a lock are those with a mutex. -/
  ids : l.ids = Entries.keys r.places
  /-- The oldest open request for each id is listed as granted, and the others as waiting. -/
  serves : l.Serves (r.tickets.map Ticket.request)

/-- The locks and the mutexes do the same at each call. -/
theorem ListedBy.step {l : Locks} (h : r.ListedBy l) (hsound : Sound mutex r)
    (step : Step mutex r call next) : next.ListedBy (l.after call) := by
  have hserves := h.serves.after call
  cases step with
  | acquire id party =>
    obtain ⟨place, htickets⟩ := tickets_acquire mutex r id party
    refine ⟨?_, ?_⟩
    · rw [keys_acquire, ← h.ids, Locks.after, Locks.ids_acquire]
    · rw [htickets, List.map_append]
      exact hserves
  | release party order horder =>
    refine ⟨?_, ?_⟩
    · rw [places_foldl_giveUp, ← h.ids]
      rfl
    · rw [hsound.tickets_release horder]
      rw [Locks.openAfter, List.filter_map] at hserves
      exact hserves

/-- Calls make no number come again: what is open was open before or is newer. -/
theorem Step.newer (hsound : Sound mutex r) (step : Step mutex r call next) :
    r.made ≤ next.made ∧ ∀ t ∈ next.tickets, t ∈ r.tickets ∨ r.made ≤ t.number := by
  cases step with
  | acquire id party =>
    obtain ⟨place, htickets⟩ := tickets_acquire mutex r id party
    rw [made_acquire, htickets]
    refine ⟨Nat.le_succ _, List.forall_mem_append.2 ⟨fun t ht => .inl ht, ?_⟩⟩
    exact List.forall_mem_singleton.2 (.inr (Nat.le_refl _))
  | release party order horder =>
    rw [made_foldl_giveUp, hsound.tickets_release horder]
    exact ⟨Nat.le_refl _, fun t ht => .inl (List.mem_of_mem_filter ht)⟩

/-- What is open after calls was open before them or is newer. -/
theorem Runs.newer (fair : mutex.Fair) (hsound : Sound mutex r) (run : Runs mutex r calls last) :
    r.made ≤ last.made ∧ ∀ t ∈ last.tickets, t ∈ r.tickets ∨ r.made ≤ t.number := by
  induction run with
  | nil => exact ⟨Nat.le_refl _, fun t ht => .inl ht⟩
  | cons step _ ih =>
    obtain ⟨hmade, hnext⟩ := step.newer hsound
    obtain ⟨hmore, hlast⟩ := ih (hsound.step fair step)
    refine ⟨Nat.le_trans hmade hmore, fun t ht => ?_⟩
    rcases hlast t ht with ht | ht
    · exact hnext t ht
    · exact .inr (Nat.le_trans hmade ht)

/-- The locks list what the mutexes serve after any calls. -/
theorem Runs.listedBy (fair : mutex.Fair) {l : Locks} (hsound : Sound mutex r) (h : r.ListedBy l)
    (run : Runs mutex r calls last) : last.ListedBy (l.run calls) := by
  induction run generalizing l with
  | nil => exact h
  | cons step _ ih => exact ih (hsound.step fair step) (h.step hsound step)

/-- Whatever the calls are, they can be made. -/
theorem exists_runs (mutex : Mutex M) (r : Registry M) (calls : List LockCall) :
    ∃ last, Runs mutex r calls last := by
  induction calls generalizing r with
  | nil => exact ⟨r, .nil r⟩
  | cons call calls ih =>
    cases call with
    | acquire id party =>
      obtain ⟨last, hlast⟩ := ih (r.acquire mutex id party)
      exact ⟨last, .cons (.acquire r id party) hlast⟩
    | release party =>
      obtain ⟨last, hlast⟩ := ih ((r.ticketsOf party).foldl (giveUp mutex) r)
      exact ⟨last, .cons (.release r party _ (.refl _)) hlast⟩

/-- The request that holds a lock is the oldest open one for its id. -/
theorem Sound.holder_le (h : Sound mutex r) {holder : Nat}
    (hholder : r.holder? mutex id = some holder) (ht : t ∈ r.openOn id) : holder ≤ t.number := by
  have hsorted := h.pairwise_openOn id
  have hmem : t.number ∈ (r.openOn id).map Ticket.number := List.mem_map_of_mem ht
  rw [(h.queues_openOn id).1] at hholder
  obtain ⟨rest, hrest⟩ := List.head?_eq_some_iff.1 hholder
  rw [hrest] at hsorted hmem
  rcases List.mem_cons.1 hmem with heq | hmem
  · exact Nat.le_of_eq heq.symm
  · exact Nat.le_of_lt ((List.pairwise_cons.1 hsorted).1 _ hmem)

/-- The request that holds a lock is open. -/
theorem Sound.exists_of_holder (h : Sound mutex r) {holder : Nat}
    (hholder : r.holder? mutex id = some holder) : ∃ t ∈ r.openOn id, t.number = holder := by
  rw [(h.queues_openOn id).1] at hholder
  exact List.mem_map.1 (List.mem_of_head? hholder)

/-- Locks are granted in the order of the requests: who holds one later asked no earlier. -/
theorem Sound.holder_le_holder (fair : mutex.Fair) (h : Sound mutex r)
    (run : Runs mutex r calls last) {holder later : Nat}
    (hholder : r.holder? mutex id = some holder) (hlater : last.holder? mutex id = some later) :
    holder ≤ later := by
  obtain ⟨u, hu, rfl⟩ := (h.run fair run).exists_of_holder hlater
  obtain ⟨hopen, hid⟩ := List.mem_filter.1 hu
  rcases (run.newer fair h).2 u hopen with hold | hnew
  · exact h.holder_le hholder (List.mem_filter.2 ⟨hold, hid⟩)
  · obtain ⟨t, ht, rfl⟩ := h.exists_of_holder hholder
    exact Nat.le_trans (Nat.le_of_lt (h.made t (List.mem_of_mem_filter ht))) hnew

/-- The oldest of some requests is the one with the first number, and the others have the rest. -/
theorem filter_oldest {tickets : List Ticket}
    (h : (tickets.map Ticket.number).Pairwise (· < ·)) :
    tickets.filter (fun t => (tickets.map Ticket.number).head? == some t.number) =
        tickets.take 1 ∧
      tickets.filter (fun t => (tickets.map Ticket.number).tail.contains t.number) =
        tickets.drop 1 := by
  cases tickets with
  | nil => exact ⟨rfl, rfl⟩
  | cons t rest =>
    rw [List.map_cons, List.pairwise_cons] at h
    have hafter : ∀ u ∈ rest, t.number ≠ u.number := fun u hu =>
      Nat.ne_of_lt (h.1 _ (List.mem_map_of_mem hu))
    have hfirst : t.number ∉ rest.map Ticket.number := fun hmem => Nat.lt_irrefl _ (h.1 _ hmem)
    refine ⟨?_, ?_⟩
    · have hnil : rest.filter (fun u => some t.number == some u.number) = [] :=
        List.filter_eq_nil_iff.2 fun u hu => by simpa using hafter u hu
      rw [List.map_cons, List.head?_cons, List.filter_cons_of_pos (by simp), hnil]
      rfl
    · have hall : rest.filter (fun u => (rest.map Ticket.number).contains u.number) = rest :=
        List.filter_eq_self.2 fun u hu => by simpa using ⟨u, hu, rfl⟩
      rw [List.map_cons, List.tail_cons, List.filter_cons_of_neg (by simpa using hfirst), hall]
      rfl

/-- The mutex of an id serves the open requests first come, first served. -/
structure Served (mutex : Mutex M) (r : Registry M) (id : String) : Prop where
  /-- A lock that somebody waits for is held. -/
  busy : r.waiters mutex id ≠ [] → (r.holder? mutex id).isSome = true
  /-- Each open request holds the lock or waits for it, the oldest first. -/
  in_order : (r.holder? mutex id).toList ++ r.waiters mutex id =
    (r.openOn id).map Ticket.number
  /-- No request counts twice. -/
  once : ((r.openOn id).map Ticket.number).Pairwise (· < ·)

/-- The lock of an id is in order: its mutex serves the open requests first come, first served, and
the locks list what the mutex does. -/
structure Orderly (mutex : Mutex M) (r : Registry M) (l : Locks) (id : String) : Prop
    extends Served mutex r id where
  /-- Nobody shares the lock. -/
  exclusive : (Locks.forId id l.held).length ≤ 1
  /-- The request listed as granted is the one that holds the mutex. -/
  held : Locks.forId id l.held = ((r.openOn id).filter fun t =>
    r.holder? mutex id == some t.number).map Ticket.request
  /-- The requests listed as waiting are those that wait at the mutex. -/
  waiting : Locks.forId id l.waiting = ((r.openOn id).filter fun t =>
    (r.waiters mutex id).contains t.number).map Ticket.request

/-- In a sound registry the requests are served first come, first served. -/
theorem Sound.served (h : Sound mutex r) (id : String) : Served mutex r id := by
  obtain ⟨hholder, hwaiters⟩ := h.queues_openOn id
  refine ⟨?_, ?_, h.pairwise_openOn id⟩
  · rw [hholder, hwaiters]
    cases r.openOn id with
    | nil => exact fun hne => absurd rfl hne
    | cons t rest => exact fun _ => rfl
  · rw [hholder, hwaiters]
    cases r.openOn id <;> rfl

/-- Locks that list what the mutexes serve are in order. -/
theorem Sound.orderly {l : Locks} (h : Sound mutex r) (hlisted : r.ListedBy l) (id : String) :
    Orderly mutex r l id := by
  obtain ⟨hholder, hwaiters⟩ := h.queues_openOn id
  obtain ⟨hheld, hwaiting⟩ := hlisted.serves id
  obtain ⟨holdest, hothers⟩ := filter_oldest (h.pairwise_openOn id)
  have hopen : Locks.forId id (r.tickets.map Ticket.request) =
      (r.openOn id).map Ticket.request := List.filter_map
  rw [hopen] at hheld hwaiting
  refine ⟨h.served id, ?_, ?_, ?_⟩
  · rw [hheld]
    exact List.length_take_le 1 _
  · rw [hheld, hholder, holdest, List.map_take]
  · rw [hwaiting, hwaiters, hothers, List.map_drop]

/-- A request changes nothing at other ids, and at its own it is granted at once if nobody holds the
lock or waits for it. -/
theorem Sound.acquire_openOn (fair : mutex.Fair) (h : Sound mutex r) (id party : String) :
    ∃ t, (r.acquire mutex id party).tickets = r.tickets ++ [t] ∧ t.request = ⟨id, party⟩ ∧
      (r.holder? mutex id = none → r.waiters mutex id = [] →
        (r.acquire mutex id party).holder? mutex id = some t.number) ∧
      ∀ other, other ≠ id →
        (r.acquire mutex id party).holder? mutex other = r.holder? mutex other ∧
          (r.acquire mutex id party).waiters mutex other = r.waiters mutex other := by
  obtain ⟨place, htickets⟩ := tickets_acquire mutex r id party
  have hafter := h.acquire fair id party
  refine ⟨_, htickets, rfl, fun hfree _ => ?_, fun other hother => ?_⟩
  · rw [(h.queues_openOn id).1, List.head?_eq_none_iff] at hfree
    rw [(hafter.queues_openOn id).1, openOn, htickets, List.filter_append, List.map_append]
    rw [openOn] at hfree
    rw [hfree]
    simp
  · have hsame : (r.acquire mutex id party).openOn other = r.openOn other := by
      rw [openOn, htickets, List.filter_append, openOn]
      simp [hother.symm]
    rw [(hafter.queues_openOn other).1, (hafter.queues_openOn other).2, hsame,
      (h.queues_openOn other).1, (h.queues_openOn other).2]
    exact ⟨rfl, rfl⟩

/-- Whatever parties ask for and give up, if mutexes are fair then each lock is in order after any
calls, and its requests are served in order also while open requests are given up one by one. A
request at an id where nobody holds or waits is granted at once and disturbs no other id, and locks
are granted in the order of the requests. -/
theorem locks_served_in_order (fair : mutex.Fair) (calls : List LockCall) :
    (∃ r, Runs mutex empty calls r) ∧ ∀ r, Runs mutex empty calls r →
      (Locks.empty.run calls).ids = Entries.keys r.places ∧
      (∀ id, Orderly mutex r (Locks.empty.run calls) id) ∧
      (∀ given : List Ticket, given.Nodup → (∀ t ∈ given, t ∈ r.tickets) →
        ∀ id, Served mutex (given.foldl (giveUp mutex) r) id) ∧
      (∀ id party, ∃ t, (r.acquire mutex id party).tickets = r.tickets ++ [t] ∧
        t.request = ⟨id, party⟩ ∧
        (r.holder? mutex id = none → r.waiters mutex id = [] →
          (r.acquire mutex id party).holder? mutex id = some t.number) ∧
        ∀ other, other ≠ id →
          (r.acquire mutex id party).holder? mutex other = r.holder? mutex other ∧
            (r.acquire mutex id party).waiters mutex other = r.waiters mutex other) ∧
      ∀ more last, Runs mutex r more last → ∀ id holder later,
        r.holder? mutex id = some holder → last.holder? mutex id = some later →
          holder ≤ later := by
  refine ⟨exists_runs mutex empty calls, fun r run => ?_⟩
  have hsound : Sound mutex r := Sound.empty.run fair run
  have hlisted : r.ListedBy (Locks.empty.run calls) :=
    run.listedBy fair Sound.empty ⟨rfl, Locks.serves_empty⟩
  refine ⟨hlisted.ids, hsound.orderly hlisted, ?_, hsound.acquire_openOn fair, ?_⟩
  · exact fun given hnodup hopen => (hsound.foldl_giveUp fair hnodup hopen).served
  · intro more last further id holder later hholder hlater
    exact hsound.holder_le_holder fair further hholder hlater

end Registry

/-- A party that holds one lock, waits for it once more and waits in the middle of another queue
leaves in the reverse order of its requests. Both locks go on to those who asked next, and a third
one is granted at once. -/
theorem Registry.locks_served_in_order_crowded :
    let calls := [.acquire "a" "ann", .acquire "b" "bob", .acquire "a" "bob", .acquire "a" "ann",
      .acquire "b" "ann", .acquire "a" "cy", .acquire "b" "cy", .release "ann"]
    ∃ r, Mutex.fifo.Fair ∧ Runs Mutex.fifo empty calls r ∧
      Orderly Mutex.fifo r (Locks.empty.run calls) "a" ∧
      Orderly Mutex.fifo r (Locks.empty.run calls) "b" ∧
      Locks.empty.run calls = ⟨["a", "b"], [⟨"b", "bob"⟩, ⟨"a", "bob"⟩],
        [⟨"a", "cy"⟩, ⟨"b", "cy"⟩]⟩ ∧
      r.holder? Mutex.fifo "a" = some 2 ∧ r.waiters Mutex.fifo "a" = [5] ∧
      r.holder? Mutex.fifo "b" = some 1 ∧ r.waiters Mutex.fifo "b" = [6] ∧
      ∃ t, (r.acquire Mutex.fifo "c" "ann").tickets = r.tickets ++ [t] ∧
        (r.acquire Mutex.fifo "c" "ann").holder? Mutex.fifo "c" = some t.number := by
  intro calls
  have hrun : Runs Mutex.fifo empty calls _ :=
    .cons (.acquire _ _ _) <| .cons (.acquire _ _ _) <| .cons (.acquire _ _ _) <|
      .cons (.acquire _ _ _) <| .cons (.acquire _ _ _) <| .cons (.acquire _ _ _) <|
        .cons (.acquire _ _ _) <| .cons (.release _ _ _ (List.reverse_perm _)) <| .nil _
  obtain ⟨-, horderly, -, hrequest, -⟩ :=
    (locks_served_in_order Mutex.fifo_fair calls).2 _ hrun
  obtain ⟨t, htickets, -, hgranted, -⟩ := hrequest "c" "ann"
  refine ⟨_, Mutex.fifo_fair, hrun, horderly "a", horderly "b", ?_, ?_, ?_, ?_, ?_, t, htickets,
    hgranted ?_ ?_⟩ <;> decide +kernel

end BranchingStory
