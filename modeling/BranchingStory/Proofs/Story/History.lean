import BranchingStory.Proofs.Block.Phases
import BranchingStory.Proofs.Story.Run
import Mathlib.Data.List.Induction

/-!
# The history of a block

The calls of a run are logged with what they are answered. A block is completed at most once and
resolved at most once, the latter only after a completion that ended in a conflict, and every other
completion or resolution is answered with the phase of the block. What has been logged of a block is
in step with its phase: that is the invariant behind it.
-/

namespace BranchingStory

/-- A call with its answer, or with why it is refused. -/
structure Exchange where
  /-- The call. -/
  call : Call
  /-- What it is answered. -/
  result : Except StoryError Answer

namespace Exchange

/-- The move of a block that the answer reports. -/
def moved? (e : Exchange) : Option Transition :=
  match e.result with
  | .ok (.advance (.moved t)) => some t
  | _ => none

/-- The move of a block by its completion. -/
def completion? (id : BlockId) (e : Exchange) : Option Transition :=
  match e.call with
  | .complete key _ => if key = id then e.moved? else none
  | _ => none

/-- The move of a block by its resolution. -/
def resolution? (id : BlockId) (e : Exchange) : Option Transition :=
  match e.call with
  | .resolve key _ => if key = id then e.moved? else none
  | _ => none

/-- A completion that moves is logged for its block. -/
theorem completion?_self (id : BlockId) (d : Block.Delivery) (t : Transition) :
    completion? id ⟨.complete id d, .ok (.advance (.moved t))⟩ = some t := if_pos rfl

/-- A resolution that moves is logged for its block. -/
theorem resolution?_self (id : BlockId) (batch : List Operation) (t : Transition) :
    resolution? id ⟨.resolve id batch, .ok (.advance (.moved t))⟩ = some t := if_pos rfl

/-- An exchange that reports no move is neither a completion nor a resolution that moves. -/
theorem of_moved?_eq_none {e : Exchange} (h : e.moved? = none) (id : BlockId) :
    e.completion? id = none ∧ e.resolution? id = none := by
  unfold completion? resolution?
  cases e.call <;> simp [h]

end Exchange

namespace Story

variable {Memory : Type} {s t : Story Memory}

/-- The story after a sequence of calls. -/
def afterAll (s : Story Memory) (calls : List Call) : Story Memory := calls.foldl after s

/-- A call on a story with what it is answered. -/
def exchange (s : Story Memory) (call : Call) : Exchange := ⟨call, (s.perform call).map Prod.snd⟩

/-- The exchanges of a sequence of calls. -/
def log (s : Story Memory) : List Call → List Exchange
  | [] => []
  | call :: calls => s.exchange call :: (s.after call).log calls

/-- The story after two sequences of calls is the one after the second, from where the first led. -/
theorem afterAll_append (s : Story Memory) (first second : List Call) :
    s.afterAll (first ++ second) = (s.afterAll first).afterAll second := List.foldl_append

/-- Later calls are answered by the story that the calls before them lead to. -/
theorem log_append (s : Story Memory) (first second : List Call) :
    s.log (first ++ second) = s.log first ++ (s.afterAll first).log second := by
  induction first generalizing s with
  | nil => rfl
  | cons call first ih => exact congrArg _ (ih (s.after call))

/-- One more call is answered by the story that the calls before it lead to. -/
theorem log_concat (s : Story Memory) (calls : List Call) (call : Call) :
    s.log (calls ++ [call]) = s.log calls ++ [(s.afterAll calls).exchange call] :=
  s.log_append calls [call]

/-- The story after one more call. -/
theorem afterAll_concat (s : Story Memory) (calls : List Call) (call : Call) :
    s.afterAll (calls ++ [call]) = (s.afterAll calls).after call :=
  s.afterAll_append calls [call]

/-- Two results of a call match: it is refused for the same reason, or the answers are the same in
view and the stories after it are related. -/
inductive Matches (R : Story Memory → Story Memory → Prop) (view : Answer → Answer) :
    Except StoryError (Story Memory × Answer) → Except StoryError (Story Memory × Answer) → Prop
  /-- The call is refused. -/
  | refused (e : StoryError) : Matches R view (.error e) (.error e)
  /-- The call is answered. -/
  | answered {s t : Story Memory} {answer answer' : Answer} (h : R s t)
    (hview : view answer = view answer') : Matches R view (.ok (s, answer)) (.ok (t, answer'))

/-- Related stories with matching results of a call log the same in view and are related after it. -/
theorem Matches.step {R : Story Memory → Story Memory → Prop} {view : Answer → Answer}
    {call call' : Call} (h : Matches R view (s.perform call) (t.perform call')) (hst : R s t) :
    (s.exchange call).result.map view = (t.exchange call').result.map view ∧
      R (s.after call) (t.after call') := by
  simp only [exchange, after]
  generalize s.perform call = r at h
  generalize t.perform call' = r' at h
  cases h with
  | refused e => exact ⟨rfl, hst⟩
  | answered h hview => exact ⟨congrArg Except.ok hview, h⟩

/-- Some run leads to the story after more calls. -/
theorem Reachable.afterAll (h : s.Reachable) (calls : List Call) :
    (s.afterAll calls).Reachable := by
  induction calls generalizing s with
  | nil => exact h
  | cons call calls ih => exact ih (h.call call)

/-- In every run each block is coherent. -/
theorem Reachable.coherent (h : s.Reachable) : s.Holds Block.Coherent :=
  h.holds (fun _ => .of_idle rfl) (fun hb hstep => hb.step hstep)
    (fun _ _ _ hsettled => .of_idle (Block.status_of_settled? hsettled))
    (fun id time params _ _ => .child _ _ id time params) fun _ => .of_idle rfl

/-- The phase of a block that was put in its place, and of the others. -/
theorem status_put (s : Story Memory) (b : Block) (id : BlockId) :
    (s.put b).status id = if b.id = id then .ok b.status else s.status id := by
  rw [status, get_put]
  split <;> rfl

/-- What is logged of a completion or resolution is about the block that the call is about. -/
theorem moves_of_subject_ne {call : Call} {id : BlockId} (h : s.subject call ≠ id)
    (result : Except StoryError Answer) :
    Exchange.completion? id ⟨call, result⟩ = none ∧
      Exchange.resolution? id ⟨call, result⟩ = none := by
  cases call with
  | complete key delivery => exact ⟨if_neg h, rfl⟩
  | resolve key batch => exact ⟨rfl, if_neg h⟩
  | _ => exact ⟨rfl, rfl⟩

/-- How far a block has come, by its phase and the moves that are logged of its completions and of
its resolutions. -/
inductive Stage : Except StoryError Status → List Transition → List Transition → Prop
  /-- It is not registered yet. -/
  | absent (e : StoryError) : Stage (.error e) [] []
  /-- It is the root, which is idle from the start. -/
  | root : Stage (.ok .idle) [] []
  /-- It waits for the generator. -/
  | loading : Stage (.ok .loading) [] []
  /-- It has been completed. -/
  | completed {t : Transition} (h : Status.loading.Moves t.goal) : Stage (.ok t.goal) [t] []
  /-- Its conflict has been resolved. -/
  | resolved {t u : Transition} (ht : t.goal = .resolvingConflict)
    (hu : Status.resolvingConflict.Moves u.goal) : Stage (.ok u.goal) [t] [u]

namespace Stage

variable {status : Except StoryError Status} {completions resolutions : List Transition}

/-- A loading block has not been completed. -/
theorem of_loading (h : Stage status completions resolutions) (hstatus : status = .ok .loading) :
    completions = [] ∧ resolutions = [] := by
  cases h with
  | absent e => cases hstatus
  | root => cases hstatus
  | loading => exact ⟨rfl, rfl⟩
  | completed h =>
    rw [Except.ok.inj hstatus] at h
    cases h
  | resolved ht hu =>
    rw [Except.ok.inj hstatus] at hu
    cases hu

/-- A block with a conflict has been completed and not been resolved. -/
theorem of_resolvingConflict (h : Stage status completions resolutions)
    (hstatus : status = .ok .resolvingConflict) :
    ∃ t : Transition, t.goal = .resolvingConflict ∧ completions = [t] ∧ resolutions = [] := by
  cases h with
  | absent e => cases hstatus
  | root => cases hstatus
  | loading => cases hstatus
  | completed h => exact ⟨_, Except.ok.inj hstatus, rfl, rfl⟩
  | resolved ht hu =>
    rw [Except.ok.inj hstatus] at hu
    cases hu

/-- A block is completed and resolved at most once. -/
theorem length_le_one (h : Stage status completions resolutions) :
    completions.length ≤ 1 ∧ resolutions.length ≤ 1 := by
  cases h <;> simp

/-- A block that has been completed is not loading. -/
theorem of_completed (h : Stage status completions resolutions) (hne : completions ≠ []) :
    ∃ phase, status = .ok phase ∧ phase ≠ .loading := by
  cases h with
  | absent e => exact absurd rfl hne
  | root => exact absurd rfl hne
  | loading => exact absurd rfl hne
  | completed h => exact ⟨_, rfl, fun hgoal => by rw [hgoal] at h; cases h⟩
  | resolved ht hu => exact ⟨_, rfl, fun hgoal => by rw [hgoal] at hu; cases hu⟩

/-- A block that has been resolved, or completed without a conflict, has none. -/
theorem of_resolved (h : Stage status completions resolutions)
    (hsettled : resolutions ≠ [] ∨ ∃ t ∈ completions, t.goal ≠ .resolvingConflict) :
    ∃ phase, status = .ok phase ∧ phase ≠ .resolvingConflict := by
  cases h with
  | absent e => simp at hsettled
  | root => simp at hsettled
  | loading => simp at hsettled
  | completed h => exact ⟨_, rfl, by simpa using hsettled⟩
  | resolved ht hu => exact ⟨_, rfl, fun hgoal => by rw [hgoal] at hu; cases hu⟩

/-- What a call does to the phase of a block, with the moves that are logged of its completion and
of its resolution. -/
inductive Next : Except StoryError Status → Except StoryError Status → Option Transition →
    Option Transition → Prop
  /-- The phase stays as it is. -/
  | same (status : Except StoryError Status) : Next status status none none
  /-- The block is created. -/
  | created (e : StoryError) : Next (.error e) (.ok .loading) none none
  /-- The block is completed. -/
  | completed {t : Transition} (h : Status.loading.Moves t.goal) :
    Next (.ok .loading) (.ok t.goal) (some t) none
  /-- The conflict is resolved. -/
  | resolved {t : Transition} (h : Status.resolvingConflict.Moves t.goal) :
    Next (.ok .resolvingConflict) (.ok t.goal) none (some t)

/-- A block goes on from the stage that it has come to. -/
theorem next {status' : Except StoryError Status} {completion resolution : Option Transition}
    (h : Stage status completions resolutions)
    (hnext : Next status status' completion resolution) :
    Stage status' (completions ++ completion.toList) (resolutions ++ resolution.toList) := by
  cases hnext with
  | same => simpa using h
  | created e =>
    cases h
    exact .loading
  | completed hmoves =>
    obtain ⟨rfl, rfl⟩ := h.of_loading rfl
    exact .completed hmoves
  | resolved hmoves =>
    obtain ⟨t, ht, rfl, rfl⟩ := h.of_resolvingConflict rfl
    exact .resolved ht hmoves

end Stage

/-- A step takes the block that the call is about to its next stage. -/
theorem next_of_step {b next : Block} {call : Call} {answer : Answer}
    (h : b.Step call next answer) (s : Story Memory) :
    Stage.Next (.ok b.status) (.ok next.status)
      (Exchange.completion? (s.subject call) ⟨call, .ok answer⟩)
      (Exchange.resolution? (s.subject call) ⟨call, .ok answer⟩) := by
  cases h with
  | submit id ops h =>
    rw [(Block.status_of_submit? h).1]
    exact .same _
  | complete id renamer memory delivery h =>
    obtain ⟨hloading, hmoves⟩ := Block.moves_of_complete? h
    rw [subject, Exchange.completion?_self, hloading]
    exact .completed (t := ⟨id, .loading, next.status, _⟩) hmoves
  | resolve id batch h =>
    obtain ⟨hresolving, hmoves⟩ := Block.moves_of_resolve? h
    rw [subject, Exchange.resolution?_self, hresolving]
    exact .resolved (t := ⟨id, .resolvingConflict, next.status, _⟩) hmoves
  | details id hidle content metadata => exact .same _
  | settings id settings => exact .same _
  | select id index h =>
    obtain ⟨-, rfl⟩ := Block.select?_cases h
    exact .same _

section Call

variable {P : Block → Prop} (hs : s.Holds P)
include hs

/-- A registered block is still there after a call, and goes on. -/
theorem get_after {id : BlockId} {b : Block} (hb : s.get id = .ok b) (call : Call) :
    ∃ next, (s.after call).get id = .ok next ∧ b.Continues next := by
  rcases s.after_cases call with ht | ⟨c, next, answer, memory, hc, hstep, ht⟩ |
    ⟨c, parent, current, key, time, params, -, hc, -, hnew, ht⟩
  · rw [ht]
    exact ⟨b, hb, .refl b⟩
  · have hget : (s.after call).get id = if next.id = id then .ok next else s.get id := by
      rw [ht]
      exact s.get_put next id
    rw [hget]
    split
    · next hid =>
      have hsame : s.subject call = id := by rw [← (hs _ c hc).1, ← hstep.keeps.id_eq, hid]
      rw [hsame, hb] at hc
      cases hc
      exact ⟨next, rfl, hstep.continues⟩
    · exact ⟨b, hb, .refl b⟩
  · rw [ht, get_put, get_put]
    split
    · next hid =>
      have hsame : s.subject call = id := (hs _ c hc).1.symm.trans hid
      rw [hsame, hb] at hc
      cases hc
      exact ⟨_, rfl, b.continues_attach key params⟩
    · split
      · next hid =>
        have hkey : key = id := hid
        rw [hkey, Table.has, get_eq_ok_iff.1 hb] at hnew
        cases hnew
      · exact ⟨b, hb, .refl b⟩

/-- A call takes each block to its next stage. -/
theorem next_after (call : Call) (id : BlockId) :
    Stage.Next (s.status id) ((s.after call).status id) ((s.exchange call).completion? id)
      ((s.exchange call).resolution? id) := by
  have hunmoved : (s.exchange call).moved? = none → (s.after call).status id = s.status id →
      Stage.Next (s.status id) ((s.after call).status id) ((s.exchange call).completion? id)
        ((s.exchange call).resolution? id) := by
    intro hmoved hstatus
    obtain ⟨hcompletion, hresolution⟩ := Exchange.of_moved?_eq_none hmoved id
    rw [hstatus, hcompletion, hresolution]
    exact .same _
  cases hperform : s.perform call with
  | error e =>
    refine hunmoved ?_ (by rw [after, hperform])
    rw [exchange, hperform]
    rfl
  | ok r =>
    obtain ⟨t, answer⟩ := r
    have hexchange : s.exchange call = ⟨call, .ok answer⟩ := by
      rw [exchange, hperform]
      rfl
    have hafter : s.after call = t := by rw [after, hperform]
    obtain ⟨b, hb, ⟨rfl, hanswer⟩ | ⟨next, memory, hstep, rfl⟩ |
      ⟨parent, current, key, time, params, rfl, -, hnew, rfl, rfl⟩⟩ := perform_cases hperform
    · refine hunmoved ?_ (by rw [hafter])
      rw [hexchange]
      rcases hanswer with rfl | rfl <;> rfl
    · -- A step changes the phase of its own block only, and is logged for that block only.
      have hid : next.id = s.subject call := hstep.keeps.id_eq.trans (hs _ b hb).1
      have hnext : (s.after call).status id =
          if s.subject call = id then .ok next.status else s.status id := by
        rw [hafter, ← hid]
        exact s.status_put next id
      rw [hnext, hexchange]
      by_cases hsubject : s.subject call = id
      · subst hsubject
        have hbefore : s.status (s.subject call) = .ok b.status := by
          rw [status, hb]
          rfl
        rw [if_pos rfl, hbefore]
        exact next_of_step hstep s
      · obtain ⟨hcompletion, hresolution⟩ := moves_of_subject_ne hsubject (.ok answer)
        rw [if_neg hsubject, hcompletion, hresolution]
        exact .same _
    · rw [hexchange, hafter, status_put, status_put]
      split
      · next hid =>
        have hbefore : s.status id = .ok b.status := by
          change b.id = id at hid
          rw [status, ← hid, (hs _ b hb).1, hb]
          rfl
        rw [hbefore]
        exact .same _
      · split
        · next hid =>
          have hfree : s.get id = .error (.notFound id) := by
            change key = id at hid
            rw [hid, Table.has, Option.isSome_eq_false_iff, Option.isNone_iff_eq_none] at hnew
            rw [get, hnew]
          rw [status, hfree]
          exact .created _
        · exact .same _

end Call

/-- In a run of a new story each block has come as far as the log says. -/
theorem stage_new (config : Config) (renamer : Renamer Memory) (memory : Memory)
    (calls : List Call) (id : BlockId) :
    let first := Story.new config renamer memory
    Stage ((first.afterAll calls).status id)
      ((first.log calls).filterMap (Exchange.completion? id))
      ((first.log calls).filterMap (Exchange.resolution? id)) := by
  intro first
  -- The log grows at its end, so the last call of the run is taken off.
  induction calls using List.reverseRecOn with
  | nil =>
    have hstatus : first.status id =
        if config.rootId = id then .ok .idle else .error (.notFound id) := by
      rw [status, get_new]
      split <;> rfl
    change Stage (first.status id) [] []
    rw [hstatus]
    split
    · exact .root
    · exact .absent _
  | append_singleton calls call ih =>
    have hreachable : (first.afterAll calls).Reachable := (Reachable.new ..).afterAll calls
    have hone : ∀ (f : Exchange → Option Transition) (e : Exchange),
        [e].filterMap f = (f e).toList := by
      intro f e
      cases he : f e <;> simp [he]
    rw [log_concat, afterAll_concat, List.filterMap_append, List.filterMap_append, hone, hone]
    exact ih.next (next_after hreachable.coherent call id)

/-- A registered block that is not loading answers a completion with its phase. -/
theorem perform_complete_of_ne {id : BlockId} {b : Block} (hb : s.get id = .ok b)
    (hne : b.status ≠ .loading) (d : Block.Delivery) :
    s.perform (.complete id d) = .ok (s, .advance (.notApplicable b.status)) := by
  have hnone := Block.complete?_of_ne_loading s.renamer s.memory d hne
  simp only [perform, complete, hb, hnone]
  rfl

/-- A registered block without a conflict answers a resolution with its phase. -/
theorem perform_resolve_of_ne {id : BlockId} {b : Block} (hb : s.get id = .ok b)
    (hne : b.status ≠ .resolvingConflict) (batch : List Operation) :
    s.perform (.resolve id batch) = .ok (s, .advance (.notApplicable b.status)) := by
  have hnone := Block.resolve?_of_ne_resolvingConflict batch hne
  simp only [perform, resolve, hb, hnone]
  rfl

/-- Only a block with a conflict is moved by a resolution. -/
theorem status_of_perform_resolve {id : BlockId} {batch : List Operation} {u : Transition}
    (h : s.perform (.resolve id batch) = .ok (t, .advance (.moved u))) :
    s.status id = .ok .resolvingConflict := by
  cases hb : s.get id with
  | error e =>
    simp only [perform, resolve, hb] at h
    cases h
  | ok b =>
    by_cases hstatus : b.status = .resolvingConflict
    · rw [status, hb, ← hstatus]
      rfl
    · rw [perform_resolve_of_ne hb hstatus] at h
      cases h

/-- A registered block is still there after more calls, and goes on. -/
theorem Reachable.get_afterAll (h : s.Reachable) {id : BlockId} {b : Block} (hb : s.get id = .ok b)
    (calls : List Call) : ∃ next, (s.afterAll calls).get id = .ok next ∧ b.Continues next := by
  induction calls generalizing s b with
  | nil => exact ⟨b, hb, .refl b⟩
  | cons call calls ih =>
    obtain ⟨next, hnext, hcontinues⟩ := get_after h.coherent hb call
    obtain ⟨last, hlast, hcontinues'⟩ := ih (h.call call) hnext
    exact ⟨last, hlast, hcontinues.trans hcontinues'⟩

/-- In every run of calls on a new story, each block keeps its id, its parent and its input world,
only gets more children at the end, moves from loading to another phase and from a conflict to idle
or failed, and never leaves these two or, once idle, changes its world right after the merge. Only
an idle block has children, exactly a failed one has no current world, and a conflict has operations
on both sides. A block is completed at most once and resolved at most once, the latter only after a
completion that ended in a conflict, and every further completion or resolution is answered with the
phase of the block. -/
theorem history_of_block (config : Config) (renamer : Renamer Memory) (memory : Memory)
    (calls : List Call) (id : BlockId) :
    let first := Story.new config renamer memory
    let s := first.afterAll calls
    let completions := (first.log calls).filterMap (Exchange.completion? id)
    let resolutions := (first.log calls).filterMap (Exchange.resolution? id)
    (∀ b, s.get id = .ok b →
      (∀ later, ∃ next, (s.afterAll later).get id = .ok next ∧ b.Continues next) ∧
      (b.children ≠ [] → b.status = .idle) ∧ (b.current? = none ↔ b.status = .error) ∧
      (b.status = .resolvingConflict → ∃ scratch queue generated edited conflict,
        b.phase = .resolving scratch queue generated edited conflict ∧
          conflict.generated ≠ [] ∧ conflict.edited ≠ [])) ∧
    completions.length ≤ 1 ∧ resolutions.length ≤ 1 ∧
    (∀ batch t u, s.perform (.resolve id batch) = .ok (t, .advance (.moved u)) →
      ∃ c ∈ completions, c.goal = .resolvingConflict) ∧
    (∀ d, completions ≠ [] →
      ∃ phase, s.perform (.complete id d) = .ok (s, .advance (.notApplicable phase))) ∧
    ∀ batch, (resolutions ≠ [] ∨ ∃ c ∈ completions, c.goal ≠ .resolvingConflict) →
      ∃ phase, s.perform (.resolve id batch) = .ok (s, .advance (.notApplicable phase)) := by
  intro first s completions resolutions
  have hreachable : s.Reachable := (Reachable.new config renamer memory).afterAll calls
  have hstage : Stage (s.status id) completions resolutions :=
    stage_new config renamer memory calls id
  obtain ⟨hcompletions, hresolutions⟩ := hstage.length_le_one
  refine ⟨fun b hb => ?_, hcompletions, hresolutions, fun batch t u hmoved => ?_,
    fun d hcompleted => ?_, fun batch hresolved => ?_⟩
  · have hcoherent : b.Coherent := (hreachable.coherent id b hb).2
    exact ⟨hreachable.get_afterAll hb, hcoherent.idle_of_children, b.current?_eq_none_iff,
      hcoherent.exists_conflict⟩
  · obtain ⟨c, hc, hlogged, -⟩ := hstage.of_resolvingConflict (status_of_perform_resolve hmoved)
    rw [hlogged]
    exact ⟨c, List.mem_cons_self, hc⟩
  · obtain ⟨phase, hphase, hne⟩ := hstage.of_completed hcompleted
    obtain ⟨b, hb, rfl⟩ := exists_of_map_eq_ok hphase
    exact ⟨b.status, perform_complete_of_ne hb hne d⟩
  · obtain ⟨phase, hphase, hne⟩ := hstage.of_resolved hresolved
    obtain ⟨b, hb, rfl⟩ := exists_of_map_eq_ok hphase
    exact ⟨b.status, perform_resolve_of_ne hb hne batch⟩

/-- A completion that ends in a conflict and a resolution that leaves the block idle: both are
logged once, and neither is possible again. -/
theorem history_of_block_resolved :
    let hero : EntityId := ⟨.character, "hero"⟩
    let hp (n : Int64) : Operation := .modify hero "hp" .equal (.int n)
    let calls : List Call := [.submit Config.default.rootId [.create hero []],
      .createChild none "b" "now" [], .submit "b" [hp 1], .complete "b" ⟨true, "text", [hp 2], []⟩,
      .resolve "b" [hp 3]]
    let first := Story.new Config.default Config.default.sequentialRenamer 1
    let s := first.afterAll calls
    (first.log calls).filterMap (Exchange.completion? "b") =
        [⟨"b", .loading, .resolvingConflict, []⟩] ∧
      (first.log calls).filterMap (Exchange.resolution? "b") =
        [⟨"b", .resolvingConflict, .idle, [⟨hp 3, none⟩]⟩] ∧
      (∀ d, ∃ phase, s.perform (.complete "b" d) = .ok (s, .advance (.notApplicable phase))) ∧
      (∀ batch, ∃ phase,
        s.perform (.resolve "b" batch) = .ok (s, .advance (.notApplicable phase))) ∧
      ∃ b, s.get "b" = .ok b ∧ b.status = .idle ∧
        ∀ later, ∃ next, (s.afterAll later).get "b" = .ok next ∧ b.Continues next := by
  intro hero hp calls first s
  have hcompletions : (first.log calls).filterMap (Exchange.completion? "b") =
      [⟨"b", .loading, .resolvingConflict, []⟩] := by
    subst first calls hp hero
    rfl
  have hresolutions : (first.log calls).filterMap (Exchange.resolution? "b") =
      [⟨"b", .resolvingConflict, .idle, [⟨hp 3, none⟩]⟩] := by
    subst first calls hp hero
    rfl
  have hidle : s.status "b" = .ok .idle := by
    subst s first calls hp hero
    rfl
  obtain ⟨hblock, -, -, -, hcompleted, hresolved⟩ :=
    history_of_block Config.default Config.default.sequentialRenamer 1 calls "b"
  obtain ⟨b, hb, hstatus⟩ := exists_of_map_eq_ok hidle
  refine ⟨hcompletions, hresolutions, fun d => hcompleted d ?_,
    fun batch => hresolved batch (.inl ?_), b, hb, hstatus, (hblock b hb).1⟩
  · rw [hcompletions]
    simp
  · rw [hresolutions]
    simp

end Story

end BranchingStory
