import BranchingStory.Proofs.Story.Call

/-!
# Runs of a story

A run is a sequence of calls on a new story, interrupted by restarts that restore the story from its
own snapshot. A call that succeeds replaces one block by what a step of that block leads to; only
creating a child registers a block as well. Invariants of all runs are proved from these steps.
-/

namespace BranchingStory

namespace Story

variable {Memory : Type}

/-- The story after a call; a refused call changes nothing. -/
def after (s : Story Memory) (call : Call) : Story Memory :=
  match s.perform call with
  | .ok (next, _) => next
  | .error _ => s

/-- Some run leads to the story. -/
inductive Reachable : Story Memory → Prop
  /-- A new story. -/
  | new (config : Config) (renamer : Renamer Memory) (memory : Memory) :
    Reachable (.new config renamer memory)
  /-- The story after one more call. -/
  | call {s : Story Memory} (h : Reachable s) (call : Call) : Reachable (s.after call)
  /-- The story restored from its own snapshot. -/
  | restart {s t : Story Memory} (h : Reachable s) (config : Config) (renamer : Renamer Memory)
    (memory : Memory) (hrestore : restore config renamer memory s.snapshot = .ok t) : Reachable t

variable {s t : Story Memory}

/-- A new story has its root and nothing else. -/
theorem get_new (config : Config) (renamer : Renamer Memory) (memory : Memory) (id : BlockId) :
    (Story.new config renamer memory).get id =
      if config.rootId = id then .ok (.root config.rootId) else .error (.notFound id) :=
  get_put ⟨config, config.rootId, .empty, renamer, memory⟩ (.root config.rootId) id

/-- All ways in which a call changes a story. -/
theorem after_cases (s : Story Memory) (call : Call) :
    s.after call = s ∨
    (∃ b next answer memory, s.get (s.subject call) = .ok b ∧ b.Step call next answer ∧
      s.after call = { s.put next with memory }) ∨
    ∃ b parent current id time params, call = .createChild parent id time params ∧
      s.get (s.subject call) = .ok b ∧ b.settled? = some current ∧ s.blocks.has id = false ∧
      s.after call = (s.put (b.child current id time params)).put (b.attach id params) := by
  unfold Story.after
  split
  · next t answer h =>
    obtain ⟨b, hb, ⟨ht, -⟩ | ⟨next, memory, hstep, ht⟩ |
      ⟨parent, current, id, time, params, hcall, hsettled, hnew, -, ht⟩⟩ := perform_cases h
    · exact .inl ht
    · exact .inr (.inl ⟨b, next, answer, memory, hb, hstep, ht⟩)
    · exact .inr (.inr ⟨b, parent, current, id, time, params, hcall, hb, hsettled, hnew, ht⟩)
  · exact .inl rfl

/-- Each block of a story is registered under its own id and has a property. -/
def Holds (s : Story Memory) (P : Block → Prop) : Prop :=
  ∀ id b, s.get id = .ok b → b.id = id ∧ P b

/-- A story restored from its own snapshot has the same root. -/
theorem rootId_restore {config : Config} {renamer : Renamer Memory} {memory : Memory}
    (h : restore config renamer memory s.snapshot = .ok t) : t.rootId = s.rootId := by
  unfold restore at h
  split at h <;> cases h
  rfl

/-- A story restored from its own snapshot has the same blocks in the same order, each as it was
recorded. -/
theorem entries_restore {P : Block → Prop} (hs : s.Holds P) {config : Config}
    {renamer : Renamer Memory} {memory : Memory}
    (h : restore config renamer memory s.snapshot = .ok t) :
    t.blocks.entries = s.blocks.entries.map fun e => (e.1, e.2.record.toBlock) := by
  have hrecords : s.snapshot.blocks.map (fun r => (r.id, r.toBlock)) =
      s.blocks.entries.map fun e => (e.1, e.2.record.toBlock) := by
    simp only [snapshot, Table.values, List.map_map]
    refine List.map_congr_left fun e he => ?_
    have hid : e.2.id = e.1 := (hs e.1 e.2 (get_eq_ok_iff.2 (Table.mem_entries_iff.1 he))).1
    simp [Block.record, hid]
  unfold restore at h
  split at h <;> cases h
  rw [hrecords]
  exact Table.entries_ofList_map s.blocks fun b => b.record.toBlock

/-- A story restored from its own snapshot has the same blocks, each as it was recorded. -/
theorem get?_restore {P : Block → Prop} (hs : s.Holds P) {config : Config}
    {renamer : Renamer Memory} {memory : Memory}
    (h : restore config renamer memory s.snapshot = .ok t) (id : BlockId) :
    t.blocks.get? id = (s.blocks.get? id).map fun b => b.record.toBlock := by
  rw [Table.get?, entries_restore hs h]
  exact Table.find?_map s.blocks.entries (fun b => b.record.toBlock) id

section Invariant

variable {P : Block → Prop}
  (hroot : ∀ id, P (.root id))
  (hstep : ∀ {b next : Block} {call : Call} {answer : Answer}, P b → b.Step call next answer →
    P next)
  (hattach : ∀ {b : Block} {current : World} (id : BlockId) (params : Entries Value), P b →
    b.settled? = some current → P (b.attach id params))
  (hchild : ∀ {b : Block} {current : World} (id : BlockId) (time : String)
    (params : Entries Value), P b → b.settled? = some current →
    P (b.child current id time params))
  (hrestored : ∀ {b : Block}, P b → P b.record.toBlock)

include hstep hattach hchild in
/-- A call keeps a property that steps and new children keep and the children take over. -/
theorem Holds.after (hs : s.Holds P) (call : Call) : (s.after call).Holds P := by
  rcases s.after_cases call with ht | ⟨b, next, answer, memory, hb, hnext, ht⟩ |
    ⟨b, parent, current, id, time, params, -, hb, hsettled, -, ht⟩
  · rwa [ht]
  · intro key d hd
    rw [ht] at hd
    change (s.put next).get key = .ok d at hd
    rw [get_put] at hd
    split at hd
    · next hkey =>
      cases hd
      exact ⟨hkey, hstep (hs _ b hb).2 hnext⟩
    · exact hs key d hd
  · intro key d hd
    rw [ht, get_put, get_put] at hd
    split at hd
    · next hkey =>
      cases hd
      exact ⟨hkey, hattach id params (hs _ b hb).2 hsettled⟩
    · split at hd
      · next hkey =>
        cases hd
        exact ⟨hkey, hchild id time params (hs _ b hb).2 hsettled⟩
      · exact hs key d hd

include hroot hstep hattach hchild hrestored in
/-- A property of the root that steps, new children and restarts keep and the children take over is
one of every block in every run. -/
theorem Reachable.holds (h : s.Reachable) : s.Holds P := by
  induction h with
  | new config renamer memory =>
    intro id b hb
    rw [get_new] at hb
    split at hb
    · next hid =>
      cases hb
      exact ⟨hid, hroot config.rootId⟩
    · cases hb
  | call h call ih => exact ih.after hstep hattach hchild call
  | restart h config renamer memory hrestore ih =>
    intro id b hb
    rw [get_eq_ok_iff, get?_restore ih hrestore] at hb
    obtain ⟨source, hsource, rfl⟩ := Option.map_eq_some_iff.1 hb
    obtain ⟨hid, hP⟩ := ih id source (get_eq_ok_iff.2 hsource)
    exact ⟨hid, hrestored hP⟩

end Invariant

end Story

end BranchingStory
