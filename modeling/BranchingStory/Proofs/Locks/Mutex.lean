import Mathlib.Data.List.Basic

/-!
# Mutexes

A mutex is known by what its users see of it: they make requests and give them up, one request is
granted at a time and the others wait. A fair mutex serves its requests in the order in which they
are made and passes over those that are given up, so it is a queue with the granted request first.
-/

namespace BranchingStory

/-- A mutex as it is used: requests have numbers, and one may be given up, granted or not. -/
structure Mutex (M : Type) where
  /-- A mutex for which nobody has asked. -/
  new : M
  /-- A request of the given number is made. -/
  request (number : Nat) (m : M) : M
  /-- The request of the given number is given up. -/
  giveUp (number : Nat) (m : M) : M
  /-- The request that is granted. -/
  holder? : M → Option Nat
  /-- The requests that wait. -/
  waiters : M → List Nat

namespace Mutex

variable {M : Type} {mutex : Mutex M} {m : M} {number : Nat} {numbers : List Nat}

/-- The mutex serves its requests first come, first served. -/
structure Fair (mutex : Mutex M) : Prop where
  /-- A new mutex is free. -/
  new : mutex.holder? mutex.new = none ∧ mutex.waiters mutex.new = []
  /-- A free mutex grants a request at once. -/
  request_free : ∀ number m, mutex.holder? m = none → mutex.waiters m = [] →
    mutex.holder? (mutex.request number m) = some number ∧
      mutex.waiters (mutex.request number m) = []
  /-- A request for a mutex that is held waits behind the others. -/
  request_held : ∀ number m holder, mutex.holder? m = some holder →
    mutex.holder? (mutex.request number m) = some holder ∧
      mutex.waiters (mutex.request number m) = mutex.waiters m ++ [number]
  /-- When nobody waits, giving up the mutex makes it free. -/
  giveUp_last : ∀ number m, mutex.holder? m = some number → mutex.waiters m = [] →
    mutex.holder? (mutex.giveUp number m) = none ∧ mutex.waiters (mutex.giveUp number m) = []
  /-- Giving up the mutex hands it to the request that has waited longest. -/
  giveUp_holder : ∀ number m next rest, mutex.holder? m = some number →
    mutex.waiters m = next :: rest →
      mutex.holder? (mutex.giveUp number m) = some next ∧
        mutex.waiters (mutex.giveUp number m) = rest
  /-- A request that waits and is given up loses its place. -/
  giveUp_waiter : ∀ number m holder, mutex.holder? m = some holder → holder ≠ number →
    mutex.holder? (mutex.giveUp number m) = some holder ∧
      mutex.waiters (mutex.giveUp number m) = (mutex.waiters m).erase number

/-- The requests at the mutex are the given ones: the first holds it and the others wait in
order. -/
def Queues (mutex : Mutex M) (m : M) (numbers : List Nat) : Prop :=
  mutex.holder? m = numbers.head? ∧ mutex.waiters m = numbers.tail

namespace Fair

/-- No request is at a new mutex. -/
theorem queues_new (fair : mutex.Fair) : mutex.Queues mutex.new [] := fair.new

/-- A request joins the end. -/
theorem queues_request (fair : mutex.Fair) (h : mutex.Queues m numbers) :
    mutex.Queues (mutex.request number m) (numbers ++ [number]) := by
  obtain ⟨hholder, hwaiters⟩ := h
  cases numbers with
  | nil => exact fair.request_free number m hholder hwaiters
  | cons holder rest =>
    obtain ⟨hnext, hrest⟩ := fair.request_held number m holder hholder
    exact ⟨hnext, by rw [hrest, hwaiters]; rfl⟩

/-- A request that is given up leaves, wherever it is. -/
theorem queues_giveUp (fair : mutex.Fair) (h : mutex.Queues m numbers) (hmem : number ∈ numbers) :
    mutex.Queues (mutex.giveUp number m) (numbers.erase number) := by
  obtain ⟨hholder, hwaiters⟩ := h
  cases numbers with
  | nil => cases hmem
  | cons holder rest =>
    by_cases heq : holder = number
    · subst heq
      rw [List.erase_cons_head]
      cases rest with
      | nil => exact fair.giveUp_last holder m hholder hwaiters
      | cons next rest => exact fair.giveUp_holder holder m next rest hholder hwaiters
    · obtain ⟨hsame, hrest⟩ := fair.giveUp_waiter number m holder hholder heq
      rw [List.erase_cons_tail (by simpa using heq)]
      exact ⟨hsame, by rw [hrest, hwaiters]; rfl⟩

end Fair

/-- A mutex that is the list of its open requests, of which the first is granted. -/
def fifo : Mutex (List Nat) where
  new := []
  request number queue := queue ++ [number]
  giveUp number queue := queue.erase number
  holder? := List.head?
  waiters := List.tail

/-- A list of open requests is fair. -/
theorem fifo_fair : fifo.Fair where
  new := ⟨rfl, rfl⟩
  request_free number queue hfree _ := by
    rw [List.head?_eq_none_iff.1 hfree]
    exact ⟨rfl, rfl⟩
  request_held number queue holder hheld := by
    obtain ⟨rest, rfl⟩ := List.head?_eq_some_iff.1 hheld
    exact ⟨rfl, rfl⟩
  giveUp_last number queue hheld hlast := by
    obtain ⟨rest, rfl⟩ := List.head?_eq_some_iff.1 hheld
    cases hlast
    simp [fifo]
  giveUp_holder number queue next rest hheld hnext := by
    obtain ⟨others, rfl⟩ := List.head?_eq_some_iff.1 hheld
    cases hnext
    simp [fifo]
  giveUp_waiter number queue holder hheld hne := by
    obtain ⟨rest, rfl⟩ := List.head?_eq_some_iff.1 hheld
    simp [fifo, List.erase_cons_tail, hne]

end Mutex

end BranchingStory
